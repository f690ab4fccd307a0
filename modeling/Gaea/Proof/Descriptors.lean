import Gaea.Sys.Sockets
import Mathlib.Data.Set.Insert

/-!
# Descriptors that leak

A constructor of a socket or a pipe opens its descriptors first. They stay open when one of the
calls after that fails, since nothing owns them yet. So a failed constructor leaves no descriptor
behind if and only if it is the call that opens them that has failed.
-/

namespace Gaea.Sys

open Fallible

variable {Q α β : Type}

/-- A failed constructor opens nothing, and one that returns opens what its value owns. -/
def Leakless [Owner α] (new : SysM Q α) (process : Process Q) : Prop :=
  match new process with
  | (.error _, after) => after.opened = process.opened
  | (.ok value, after) =>
      (∀ fd ∈ Owner.fds value, fd ∉ process.opened)
        ∧ after.opened = process.opened ∪ {fd | fd ∈ Owner.fds value}

/-! ## Calls -/

theorem call_of_none {syscall : Call} {process : Process Q}
    (h : process.answers.errno syscall = none) : call syscall process = (.ok (), process) := by
  rw [call, h]

theorem call_of_some {syscall : Call} {process : Process Q} {errno : Int32}
    (h : process.answers.errno syscall = some errno) :
    call syscall process = (.error ⟨errno⟩, process) := by
  rw [call, h]

theorem succeeds_call_bind {syscall : Call} {process : Process Q} {f : Unit → SysM Q α} :
    (call syscall >>= f).Succeeds process
      ↔ process.answers.errno syscall = none ∧ (f ()).Succeeds process := by
  cases h : process.answers.errno syscall with
  | none =>
      rw [succeeds_bind_of_ok (call_of_none h)]
      exact (and_iff_right rfl).symm
  | some errno =>
      have hfails := not_succeeds_of_error (bind_of_error (f := f) (call_of_some h))
      exact iff_of_false hfails fun hboth => Option.some_ne_none errno hboth.1

theorem keeps_call {γ : Type} (view : Process Q → γ) (syscall : Call) :
    Keeps view (call syscall) := keeps_of_eq fun _ => rfl

theorem keeps_connect {γ : Type} (view : Process Q → γ) (fd : RawFd) (address : SocketAddr) :
    Keeps view ((call (.connect fd address)).orElse ignoreInProgress) := by
  apply keeps_of_eq
  intro process
  cases h : process.answers.errno (.connect fd address) with
  | none => rw [orElse_of_ok (call_of_none h)]
  | some errno =>
      rw [orElse_of_error (call_of_some h), ignoreInProgress]
      split <;> rfl

/-! ## Opening descriptors -/

theorem opened_openFile (process : Process Q) (fd : RawFd) (queue : Option Q) :
    (process.openFile fd queue).opened = process.opened ∪ {fd} := by
  ext fd'
  by_cases heq : fd' = fd
  · simp [Process.opened, Process.openFile, heq]
  · simp [Process.opened, Process.openFile, heq]

/-- A computation that opens descriptors, all of them or none. -/
structure Opens (x : SysM Q β) (fds : β → List RawFd) : Prop where
  error : ∀ process err after, x process = (.error err, after) → after = process
  ne_nil : ∀ process b after, x process = (.ok b, after) → fds b ≠ []
  closed : ∀ process b after, x process = (.ok b, after) → ∀ fd ∈ fds b, fd ∉ process.opened
  opened : ∀ process b after, x process = (.ok b, after) →
    after.opened = process.opened ∪ {fd | fd ∈ fds b}
  answers : ∀ process b after, x process = (.ok b, after) → after.answers = process.answers

theorem openFile_of_error {process : Process Q} {err : IoError}
    (h : process.answers.alloc process.files = .error err) (queue : Option Q) :
    openFile queue process = (.error err, process) := by
  rw [openFile, h]

theorem openFile_of_ok {process : Process Q} {fd : {fd // process.files fd = none}}
    (h : process.answers.alloc process.files = .ok fd) (queue : Option Q) :
    openFile queue process = (.ok fd.val, process.openFile fd queue) := by
  rw [openFile, h]

theorem opens_openFile (queue : Option Q) : Opens (openFile queue) fun fd => [fd] := by
  have hrun (process : Process Q) (fd : RawFd) (after : Process Q)
      (h : openFile queue process = (.ok fd, after)) :
      fd ∉ process.opened ∧ after.opened = process.opened ∪ {fd}
        ∧ after.answers = process.answers := by
    cases halloc : process.answers.alloc process.files with
    | error err =>
        rw [openFile_of_error halloc] at h
        cases h
    | ok fresh =>
        rw [openFile_of_ok halloc] at h
        obtain ⟨hfd, rfl⟩ := Prod.mk.inj h
        obtain rfl := Except.ok.inj hfd
        refine ⟨fun hopen => ?_, opened_openFile process fresh queue, rfl⟩
        have hsome : (process.files fresh).isSome = true := hopen
        rw [fresh.property] at hsome
        cases hsome
  constructor
  · intro process err after h
    cases halloc : process.answers.alloc process.files with
    | error err' =>
        rw [openFile_of_error halloc] at h
        exact (Prod.mk.inj h).2.symm
    | ok fresh =>
        rw [openFile_of_ok halloc] at h
        cases h
  · intro process fd after _
    exact List.cons_ne_nil fd []
  · intro process fd after h fd' hmem
    rw [List.mem_singleton.mp hmem]
    exact (hrun process fd after h).1
  · intro process fd after h
    rw [(hrun process fd after h).2.1]
    simp
  · intro process fd after h
    exact (hrun process fd after h).2.2

theorem pipe_ok {process after : Process Q} {fds : RawFd × RawFd}
    (h : pipe process = (.ok fds, after)) :
    ∃ between, openFile none process = (.ok fds.1, between)
      ∧ openFile none between = (.ok fds.2, after) := by
  unfold pipe at h
  rcases hfirst : openFile none process with ⟨err | first, between⟩
  · rw [hfirst] at h
    cases h
  · rcases hsecond : openFile none between with ⟨err | second, after'⟩
    · simp only [hfirst, hsecond] at h
      cases h
    · simp only [hfirst, hsecond] at h
      cases h
      exact ⟨between, rfl, hsecond⟩

theorem opens_pipe : Opens (pipe : SysM Q _) fun fds => [fds.1, fds.2] := by
  have hopens : Opens (openFile (none : Option Q)) fun fd => [fd] := opens_openFile none
  constructor
  · intro process err after h
    unfold pipe at h
    rcases hfirst : openFile none process with ⟨err | first, between⟩
    · rw [hfirst] at h
      exact (Prod.mk.inj h).2.symm
    · rcases hsecond : openFile none between with ⟨err | second, after'⟩
      · simp only [hfirst, hsecond] at h
        exact (Prod.mk.inj h).2.symm
      · simp only [hfirst, hsecond] at h
        cases h
  · intro process fds after _
    exact List.cons_ne_nil fds.1 [fds.2]
  · intro process fds after h fd hmem
    obtain ⟨between, hfirst, hsecond⟩ := pipe_ok h
    rcases List.mem_pair.mp hmem with rfl | rfl
    · exact hopens.closed _ _ _ hfirst _ (List.mem_singleton_self _)
    · have hclosed := hopens.closed _ _ _ hsecond _ (List.mem_singleton_self _)
      rw [hopens.opened _ _ _ hfirst] at hclosed
      exact fun hopen => hclosed (Or.inl hopen)
  · intro process fds after h
    obtain ⟨between, hfirst, hsecond⟩ := pipe_ok h
    rw [hopens.opened _ _ _ hsecond, hopens.opened _ _ _ hfirst, Set.union_assoc]
    congr 1
    ext fd
    simp [or_comm]
  · intro process fds after h
    obtain ⟨between, hfirst, hsecond⟩ := pipe_ok h
    rw [hopens.answers _ _ _ hsecond, hopens.answers _ _ _ hfirst]

/-- Descriptors leak when anything fails after they have been opened. -/
theorem Opens.traceless_iff {γ : Type} {view : Process Q → γ}
    (hview : ∀ process after, view process = view after → process.opened = after.opened)
    {x : SysM Q β} {fds : β → List RawFd} (hx : Opens x fds) {rest : β → SysM Q α}
    (hkeeps : ∀ b, Keeps Process.opened (rest b)) (process : Process Q) :
    Traceless view (x >>= rest) process
      ↔ ∀ b after, x process = (.ok b, after) → (rest b).Succeeds after := by
  rcases hrun : x process with ⟨err | b, after⟩
  · apply iff_of_true
    · refine failsIn_of_error (bind_of_error hrun) ?_
      rw [hx.error process err after hrun]
    · intro b after' heq
      cases heq
  · have htrace : after.opened ≠ process.opened := by
      obtain ⟨fd, hmem⟩ := List.exists_mem_of_ne_nil _ (hx.ne_nil process b after hrun)
      intro heq
      apply hx.closed process b after hrun fd hmem
      rw [← heq, hx.opened process b after hrun]
      exact Or.inr hmem
    rw [traceless_bind_iff_succeeds hview hrun (hkeeps b) htrace]
    refine ⟨fun hsucceeds b' after' heq => ?_, fun hall => hall b after rfl⟩
    obtain ⟨hb, rfl⟩ := Prod.mk.inj heq
    exact Except.ok.inj hb ▸ hsucceeds

/-- A constructor is leakless as soon as its failures are. -/
theorem Opens.leakless_iff_traceless [Owner α] {x : SysM Q β} {fds : β → List RawFd}
    (hx : Opens x fds) {rest : β → SysM Q α} (hkeeps : ∀ b, Keeps Process.opened (rest b))
    (howned : ∀ b, (rest b).Returns fun value => Owner.fds value = fds b) (process : Process Q) :
    Leakless (x >>= rest) process ↔ Traceless Process.opened (x >>= rest) process := by
  rw [Leakless]
  rcases hrun : (x >>= rest) process with ⟨err | value, after⟩
  · exact ⟨fun hsame => failsIn_of_error hrun hsame, fun htraceless => htraceless err after hrun⟩
  · refine iff_of_true ?_ (failsIn_of_succeeds ⟨value, congrArg Prod.fst hrun⟩)
    rcases hopen : x process with ⟨err | b, between⟩
    · rw [bind_of_error hopen] at hrun
      cases hrun
    · rw [bind_of_ok hopen] at hrun
      have hkept := (hkeeps b).eq between
      rw [hrun] at hkept
      dsimp only at hkept ⊢
      rw [howned b between value after hrun, hkept]
      exact ⟨hx.closed process b between hopen, hx.opened process b between hopen⟩

theorem Opens.leakless_iff [Owner α] {x : SysM Q β} {fds : β → List RawFd} (hx : Opens x fds)
    {rest : β → SysM Q α} (hkeeps : ∀ b, Keeps Process.opened (rest b))
    (howned : ∀ b, (rest b).Returns fun value => Owner.fds value = fds b) (process : Process Q) :
    Leakless (x >>= rest) process
      ↔ ∀ b after, x process = (.ok b, after) → (rest b).Succeeds after :=
  (hx.leakless_iff_traceless hkeeps howned process).trans
    (hx.traceless_iff (fun _ _ hview => hview) hkeeps process)

/-! ## The constructors -/

/-- Would-block is the one error of a `connect` that does not fail. -/
theorem succeeds_connect_bind {process : Process Q} {socketFd : RawFd} {address : SocketAddr}
    {f : Unit → SysM Q α} :
    ((call (.connect socketFd address)).orElse ignoreInProgress >>= f).Succeeds process
      ↔ (process.answers.errno (.connect socketFd address) = none
          ∨ process.answers.errno (.connect socketFd address) = some process.answers.einprogress)
        ∧ (f ()).Succeeds process := by
  cases h : process.answers.errno (.connect socketFd address) with
  | none =>
      rw [succeeds_bind_of_ok (orElse_of_ok (call_of_none h) _)]
      simp
  | some errno =>
      have hrun := orElse_of_error (call_of_some h) ignoreInProgress
      by_cases hprogress : errno = process.answers.einprogress
      · rw [succeeds_bind_of_ok (hrun.trans (if_pos hprogress))]
        simp [hprogress]
      · have hfails := bind_of_error (f := f) (hrun.trans (if_neg hprogress))
        exact iff_of_false (not_succeeds_of_error hfails) (by simp [hprogress])

theorem opens_socket (family : SocketFamily) :
    Opens (socket family : SysM Q RawFd) fun fd => [fd] :=
  opens_openFile none

theorem leakless_connect_iff (process : Process Q) (address : SocketAddr) :
    Leakless (TcpStream.connect address) process
      ↔ ∀ fd after, socket address.family process = (.ok fd, after) →
        process.answers.errno (.setNonblocking fd) = none
          ∧ (process.answers.errno (.connect fd address) = none
            ∨ process.answers.errno (.connect fd address) = some process.answers.einprogress) := by
  unfold TcpStream.connect
  rw [(opens_socket address.family).leakless_iff]
  · refine forall₃_congr fun fd after hopen => ?_
    simp only [succeeds_call_bind, succeeds_connect_bind, succeeds_pure, and_true,
      (opens_socket address.family).answers _ _ _ hopen]
  · intro fd
    exact (keeps_call _ _).bind fun _ => (keeps_connect _ _ _).bind fun _ => keeps_pure _ _
  · intro fd
    exact Returns.bind fun _ => Returns.bind fun _ => returns_pure rfl

theorem leakless_bind_iff (process : Process Q) (address : SocketAddr) :
    Leakless (TcpListener.bind address) process
      ↔ ∀ fd after, socket address.family process = (.ok fd, after) →
        process.answers.errno (.setsockopt fd .reusePort) = none
          ∧ process.answers.errno (.setsockopt fd .reuseAddr) = none
          ∧ process.answers.errno (.setNonblocking fd) = none
          ∧ process.answers.errno (.bind fd address) = none
          ∧ process.answers.errno (.listen fd 128) = none := by
  unfold TcpListener.bind enableSocketOption
  rw [(opens_socket address.family).leakless_iff]
  · refine forall₃_congr fun fd after hopen => ?_
    simp only [succeeds_call_bind, succeeds_pure, and_true,
      (opens_socket address.family).answers _ _ _ hopen]
  · intro fd
    exact (keeps_call _ _).bind fun _ => (keeps_call _ _).bind fun _ =>
      (keeps_call _ _).bind fun _ => (keeps_call _ _).bind fun _ =>
      (keeps_call _ _).bind fun _ => keeps_pure _ _
  · intro fd
    exact Returns.bind fun _ => Returns.bind fun _ => Returns.bind fun _ =>
      Returns.bind fun _ => Returns.bind fun _ => returns_pure rfl

theorem keeps_setNonblocking_ends {γ : Type} (view : Process Q → γ) (fds : RawFd × RawFd) :
    Keeps view (do
      call (.setNonblocking fds.1)
      call (.setNonblocking fds.2)
      return (⟨fds.2⟩, ⟨fds.1⟩) : SysM Q (Sender × Receiver)) :=
  (keeps_call view _).bind fun _ => (keeps_call view _).bind fun _ => keeps_pure view _

theorem traceless_newPipe_iff {γ : Type} (view : Process Q → γ)
    (hview : ∀ process after, view process = view after → process.opened = after.opened)
    (process : Process Q) :
    Traceless view newPipe process
      ↔ ∀ fds after, pipe process = (.ok fds, after) →
        process.answers.errno (.setNonblocking fds.1) = none
          ∧ process.answers.errno (.setNonblocking fds.2) = none := by
  unfold newPipe
  rw [opens_pipe.traceless_iff hview]
  · refine forall₃_congr fun fds after hopen => ?_
    simp only [succeeds_call_bind, succeeds_pure, and_true, opens_pipe.answers _ _ _ hopen]
  · exact keeps_setNonblocking_ends _

theorem leakless_newPipe_iff (process : Process Q) :
    Leakless newPipe process
      ↔ ∀ fds after, pipe process = (.ok fds, after) →
        process.answers.errno (.setNonblocking fds.1) = none
          ∧ process.answers.errno (.setNonblocking fds.2) = none := by
  rw [← traceless_newPipe_iff Process.opened fun _ _ hview => hview]
  apply opens_pipe.leakless_iff_traceless
  · exact keeps_setNonblocking_ends _
  · intro fds
    exact Returns.bind fun _ => Returns.bind fun _ => returns_pure rfl

theorem newPipe_ok {process after : Process Q} {sender : Sender} {receiver : Receiver}
    (h : newPipe process = (.ok (sender, receiver), after)) :
    pipe process = (.ok (receiver.inner, sender.inner), after) := by
  have hreturns (fds : RawFd × RawFd) :
      (do
        call (.setNonblocking fds.1)
        call (.setNonblocking fds.2)
        return (⟨fds.2⟩, ⟨fds.1⟩) : SysM Q (Sender × Receiver)).Returns
          (· = (⟨fds.2⟩, ⟨fds.1⟩)) :=
    Returns.bind fun _ => Returns.bind fun _ => returns_pure rfl
  unfold newPipe at h
  rcases hpipe : pipe process with ⟨err | fds, between⟩
  · rw [bind_of_error hpipe] at h
    cases h
  · rw [bind_of_ok hpipe] at h
    have hvalue := hreturns fds between _ _ h
    have hafter : between = after :=
      ((keeps_setNonblocking_ends id fds).eq between).symm.trans (congrArg Prod.snd h)
    obtain ⟨rfl, rfl⟩ := Prod.mk.inj hvalue
    rw [hafter]

/-- **Failed constructors leak.** Each is without a leak if and only if, once its descriptors are
open, every call that it makes succeeds. -/
theorem constructors_leakless_iff (process : Process Q) (address : SocketAddr) :
    (Leakless (TcpStream.connect address) process
      ↔ ∀ fd after, socket address.family process = (.ok fd, after) →
        process.answers.errno (.setNonblocking fd) = none
          ∧ (process.answers.errno (.connect fd address) = none
            ∨ process.answers.errno (.connect fd address) = some process.answers.einprogress))
    ∧ (Leakless (TcpListener.bind address) process
      ↔ ∀ fd after, socket address.family process = (.ok fd, after) →
        process.answers.errno (.setsockopt fd .reusePort) = none
          ∧ process.answers.errno (.setsockopt fd .reuseAddr) = none
          ∧ process.answers.errno (.setNonblocking fd) = none
          ∧ process.answers.errno (.bind fd address) = none
          ∧ process.answers.errno (.listen fd 128) = none)
    ∧ (Leakless newPipe process
      ↔ ∀ fds after, pipe process = (.ok fds, after) →
        process.answers.errno (.setNonblocking fds.1) = none
          ∧ process.answers.errno (.setNonblocking fds.2) = none) :=
  ⟨leakless_connect_iff process address, leakless_bind_iff process address,
    leakless_newPipe_iff process⟩

/-- A stream to a network that is unreachable: the error is returned, and the socket stays open. -/
theorem connect_unreachable_leaks :
    let errno : Call → Option Int32
      | .connect _ _ => some 101
      | _ => none
    let process := Process.new ⟨firstClosed [3, 4], errno, 115, ()⟩
    let address := SocketAddr.v4 0x08080808#32 80
    (TcpStream.connect address process).1 = .error ⟨101⟩
      ∧ (TcpStream.connect address process).2.files 3 = some 0
      ∧ ¬ Leakless (TcpStream.connect address) process := by
  intro errno process address
  refine ⟨by decide, by decide, fun hleakless => ?_⟩
  have hsame : (TcpStream.connect address process).2.opened = process.opened := hleakless
  have hopen : (3 : RawFd) ∈ (TcpStream.connect address process).2.opened := by
    exact (by decide : ((TcpStream.connect address process).2.files 3).isSome = true)
  rw [hsame] at hopen
  cases hopen

end Gaea.Sys
