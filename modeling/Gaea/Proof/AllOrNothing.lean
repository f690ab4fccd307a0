import Gaea.Proof.Confined

/-!
# Constructors of awakeners and signal handlers

A constructor is all-or-nothing when its failure leaves the descriptors, the selector of the queue
and the signal mask as they were. On kqueue the constructors own their descriptors before they go
on, and close them when they fail. On epoll, and between the two ends of a pipe, the descriptors are
still bare numbers when a call fails.
-/

namespace Gaea.Sys

open Fallible

variable {Q α : Type}

/-- What a constructor is not to change when it fails. -/
def Process.view (selectorFd : RawFd) (process : Process Q) :
    (RawFd → Option File) × Option Q × (Int32 → Bool) :=
  (process.files, process.queue selectorFd, process.mask)

def AllOrNothing (selectorFd : RawFd) (new : SysM Q α) (process : Process Q) : Prop :=
  Traceless (Process.view selectorFd) new process

theorem opened_of_view {selectorFd : RawFd} (process after : Process Q)
    (h : process.view selectorFd = after.view selectorFd) : process.opened = after.opened := by
  have hfiles : process.files = after.files := congrArg Prod.fst h
  rw [Process.opened, hfiles, Process.opened]

/-! ## Signal sets -/

theorem keeps_sigaddsets {γ : Type} (view : Process Q → γ) (signals : List Int32) :
    Keeps view (sigaddsets signals) := by
  induction signals with
  | nil => exact keeps_pure view ()
  | cons signal signals ih => exact (keeps_call view _).bind fun _ => ih

theorem keeps_createSigset {γ : Type} (view : Process Q → γ) (signals : SignalSet) :
    Keeps view (createSigset signals) :=
  (keeps_call view _).bind fun _ => (keeps_sigaddsets view _).bind fun _ => keeps_pure view _

theorem succeeds_sigaddsets_bind (signals : List Int32) (process : Process Q)
    (f : Unit → SysM Q α) :
    (sigaddsets signals >>= f).Succeeds process
      ↔ (∀ signal ∈ signals, process.answers.errno (.sigaddset signal) = none)
        ∧ (f ()).Succeeds process := by
  induction signals with
  | nil => exact (and_iff_right nofun).symm
  | cons signal signals ih =>
      rw [sigaddsets, bind_bind, succeeds_call_bind, ih, List.forall_mem_cons, and_assoc]

/-- The calls that make a set of signals succeed. -/
def SigsetSucceeds (signals : SignalSet) (process : Process Q) : Prop :=
  process.answers.errno .sigemptyset = none
    ∧ ∀ signal ∈ signals.toList, process.answers.errno (.sigaddset signal.intoRaw) = none

theorem succeeds_createSigset_iff (signals : SignalSet) (process : Process Q) :
    (createSigset signals).Succeeds process ↔ SigsetSucceeds signals process := by
  unfold createSigset
  rw [succeeds_call_bind, succeeds_sigaddsets_bind, SigsetSucceeds, List.forall_mem_map]
  simp

/-- A set of signals is made without a change to the process. -/
theorem createSigset_cases (signals : SignalSet) (process : Process Q) :
    (SigsetSucceeds signals process
        ∧ createSigset signals process = (.ok (signals.toList.map Signal.intoRaw), process))
      ∨ (¬ SigsetSucceeds signals process
        ∧ ∃ err, createSigset signals process = (.error err, process)) := by
  have hreturns : (createSigset signals : SysM Q _).Returns
      (· = signals.toList.map Signal.intoRaw) :=
    Returns.bind fun _ => Returns.bind fun _ => returns_pure rfl
  have hkeeps := (keeps_createSigset id signals).eq process
  rw [← succeeds_createSigset_iff]
  rcases hrun : createSigset signals process with ⟨err | set, after⟩
  · rw [hrun] at hkeeps
    obtain rfl : after = process := hkeeps
    exact Or.inr ⟨not_succeeds_of_error hrun, err, rfl⟩
  · rw [hrun] at hkeeps
    obtain rfl : after = process := hkeeps
    obtain rfl := hreturns _ _ _ hrun
    exact Or.inl ⟨⟨_, congrArg Prod.fst hrun⟩, rfl⟩

theorem blockSignals_of_none {process : Process Q} (h : process.answers.errno .sigprocmask = none)
    (set : List Int32) :
    blockSignals set process
      = (.ok (), { process with
          mask := fun signal => process.mask signal || set.contains signal }) := by
  rw [blockSignals, h]

theorem blockSignals_of_some {process : Process Q} {errno : Int32}
    (h : process.answers.errno .sigprocmask = some errno) (set : List Int32) :
    blockSignals set process = (.error ⟨errno⟩, process) := by
  rw [blockSignals, h]

theorem succeeds_blockSignals_bind {set : List Int32} {process : Process Q} {f : Unit → SysM Q α}
    (hf : ∀ process, (f ()).Succeeds process) :
    (blockSignals set >>= f).Succeeds process ↔ process.answers.errno .sigprocmask = none := by
  cases h : process.answers.errno .sigprocmask with
  | none =>
      rw [succeeds_bind_of_ok (blockSignals_of_none h set)]
      exact iff_of_true (hf _) rfl
  | some errno =>
      have hfails := not_succeeds_of_error (bind_of_error (f := f) (blockSignals_of_some h set))
      exact iff_of_false hfails nofun

theorem keeps_blockSignals (set : List Int32) :
    Keeps (Process.opened (Q := Q)) (blockSignals set) := by
  apply keeps_of_eq
  intro process
  rw [blockSignals]
  split <;> rfl

/-! ## Signal descriptors -/

theorem exists_setSigset (process : Process Q) (fd : RawFd) (set : List Int32) :
    ∃ sigsets, process.setSigset fd set = { process with sigsets } := by
  unfold Process.setSigset
  split
  · exact ⟨process.sigsets, rfl⟩
  · exact ⟨_, rfl⟩

theorem signalfd_of_ok {process after : Process Q} {fd : RawFd}
    (h : openFile none process = (.ok fd, after)) (set : List Int32) :
    Signalfd.signalfd set process = (.ok fd, after.setSigset fd set) :=
  bind_of_ok h

theorem opens_signalfd (set : List Int32) :
    Opens (Signalfd.signalfd set : SysM Q RawFd) fun fd => [fd] := by
  have hopens : Opens (openFile (none : Option Q)) fun fd => [fd] := opens_openFile none
  have hrun (process : Process Q) (fd : RawFd) (after : Process Q)
      (h : Signalfd.signalfd set process = (.ok fd, after)) :
      ∃ between sigsets, openFile none process = (.ok fd, between)
        ∧ after = { between with sigsets } := by
    rcases hopen : openFile none process with ⟨err | fd', between⟩
    · cases h.symm.trans (bind_of_error hopen)
    · rw [signalfd_of_ok hopen] at h
      obtain ⟨hfd, rfl⟩ := Prod.mk.inj h
      obtain rfl := Except.ok.inj hfd
      obtain ⟨sigsets, hset⟩ := exists_setSigset between fd' set
      exact ⟨between, sigsets, rfl, hset⟩
  constructor
  · intro process err after h
    rcases hopen : openFile none process with ⟨err' | fd, between⟩
    · cases h.symm.trans (bind_of_error hopen)
      exact hopens.error process err after hopen
    · cases h.symm.trans (signalfd_of_ok hopen set)
  · exact fun _ fd _ _ => List.cons_ne_nil fd []
  · intro process fd after h
    obtain ⟨between, sigsets, hopen, -⟩ := hrun process fd after h
    exact hopens.closed process fd between hopen
  · intro process fd after h
    obtain ⟨between, sigsets, hopen, rfl⟩ := hrun process fd after h
    exact hopens.opened process fd between hopen
  · intro process fd after h
    obtain ⟨between, sigsets, hopen, rfl⟩ := hrun process fd after h
    exact hopens.answers process fd between hopen

/-! ## On epoll -/

section Epoll

open Epoll

variable {selector : Selector} {fd : RawFd} {id : Id} {interests : Interests}
  {opt : RegisterOption} {process : Process Table}

theorem register_snd (selector : Selector) (fd : RawFd) (id : Id) (interests : Interests)
    (opt : RegisterOption) (process : Process Table) :
    ∃ queues, (selector.register fd id interests opt process).2 = { process with queues } := by
  unfold Selector.register epollCtl Kernel.epollCtl instKernelProcessTable
  dsimp only
  split
  · exact ⟨_, rfl⟩
  · exact ⟨_, rfl⟩
  · exact process.exists_setQueue _ _

theorem keeps_register :
    Keeps Process.opened (of (selector.register fd id interests opt) : SysM Table Unit) := by
  apply keeps_of_eq
  intro process
  obtain ⟨queues, h⟩ := register_snd selector fd id interests opt process
  change (selector.register fd id interests opt process).2.opened = process.opened
  rw [h]
  rfl

def epollCtlAdd (selector : Selector) (fd : RawFd) (id : Id) (opt : RegisterOption)
    (process : Process Table) : Int32 :=
  (Kernel.epollCtl selector.epfd .add fd (some (newEpollEvent Interests.readable opt id))
    process).1.1

theorem succeeds_register_bind {f : Unit → SysM Table α} :
    (of (selector.register fd id Interests.readable opt) >>= f).Succeeds process
      ↔ epollCtlAdd selector fd id opt process ≠ -1
        ∧ (f ()).Succeeds (selector.register fd id Interests.readable opt process).2 := by
  by_cases hret : epollCtlAdd selector fd id opt process = -1
  · have hrun : of (selector.register fd id Interests.readable opt) process = (.error _, _) :=
      congrArg (·, _) (if_pos hret)
    exact iff_of_false (not_succeeds_of_error (bind_of_error hrun)) fun h => h.1 hret
  · have hrun : of (selector.register fd id Interests.readable opt) process = (.ok (), _) :=
      congrArg (·, _) (if_neg hret)
    rw [succeeds_bind_of_ok hrun]
    exact (and_iff_right hret).symm

/-- Once it has its `eventfd`, the awakener must be registered. -/
theorem eventfd_allOrNothing_iff (selector : Selector) (id : Id) (process : Process Table) :
    AllOrNothing selector.epfd (Eventfd.Awakener.new selector id) process
      ↔ ∀ fd after, Eventfd.eventfd process = (.ok fd, after) →
        epollCtlAdd selector fd id RegisterOption.edge after ≠ -1 := by
  have hopens : Opens (Eventfd.eventfd : SysM Table RawFd) fun fd => [fd] := opens_openFile none
  unfold AllOrNothing Eventfd.Awakener.new
  rw [hopens.traceless_iff opened_of_view]
  · refine forall₃_congr fun fd after _ => ?_
    rw [succeeds_register_bind]
    exact and_iff_left (succeeds_pure _)
  · intro fd
    exact keeps_register.bind fun _ => keeps_pure _ _

/-- Once it has its `signalfd`, the handler must be registered and the signals be blocked. -/
theorem signalfd_allOrNothing_iff (selector : Selector) (signals : SignalSet) (id : Id)
    (process : Process Table) :
    AllOrNothing selector.epfd (Signalfd.Signals.new selector signals id) process
      ↔ (SigsetSucceeds signals process → ∀ fd after,
        Signalfd.signalfd (signals.toList.map Signal.intoRaw) process = (.ok fd, after) →
        epollCtlAdd selector fd id RegisterOption.level after ≠ -1
          ∧ process.answers.errno .sigprocmask = none) := by
  unfold AllOrNothing Signalfd.Signals.new
  rcases createSigset_cases signals process with ⟨hset, hrun⟩ | ⟨hset, err, hrun⟩
  · have hopens : Opens (Signalfd.signalfd (signals.toList.map Signal.intoRaw) : SysM Table RawFd)
        fun fd => [fd] := opens_signalfd _
    rw [Traceless, failsIn_bind_of_ok hrun, ← Traceless, hopens.traceless_iff opened_of_view,
      forall_prop_of_true hset]
    · refine forall₃_congr fun fd after hopen => ?_
      obtain ⟨queues, hregister⟩ :=
        register_snd selector fd id Interests.readable RegisterOption.level after
      rw [succeeds_register_bind, hregister,
        succeeds_blockSignals_bind fun _ => succeeds_pure (Signalfd.Signals.mk fd),
        ← hopens.answers _ _ _ hopen]
    · intro fd
      exact keeps_register.bind fun _ => (keeps_blockSignals _).bind fun _ => keeps_pure _ _
  · exact iff_of_true (failsIn_of_error (bind_of_error hrun) rfl) fun h => absurd h hset

end Epoll

/-! ## On kqueue -/

section Kqueue

open Kqueue

variable {process after : Process KernelQueue} {fd : RawFd}

theorem Confined.view (h : Confined [] process after) (selectorFd : RawFd) :
    after.view selectorFd = process.view selectorFd := by
  obtain ⟨hfiles, hqueue, hmask⟩ := h.view_eq selectorFd
  rw [Process.view, hfiles, hqueue, hmask, Process.view]

def readableChange (fd : RawFd) (id : Id) (opt : RegisterOption) : Kevent :=
  changeOf (.register fd ⟨id, Interests.readable, opt⟩) .read

theorem filtersOf_readable (fd : RawFd) (id : Id) (opt : RegisterOption) :
    filtersOf (.register fd ⟨id, Interests.readable, opt⟩) = [.read] :=
  (by decide : [Filter.write, .read].filter (wanted Interests.readable) = [.read])

theorem register_readable_eq {W : Type} [Kernel W] (selector : Selector) (fd : RawFd) (id : Id)
    (opt : RegisterOption) (world : W) :
    selector.register fd id Interests.readable opt world
      = keventRegister selector.kq [readableChange fd id opt] [] world := by
  have heq := request_eq selector (.register fd ⟨id, Interests.readable, opt⟩) world
  rw [filtersOf_readable] at heq
  exact heq

theorem isChange_setupAwakener (id : Id) :
    (newKevent 0 .user (evAdd ||| evClear ||| evReceipt) id).IsChange where
  receipt := (by decide : containsFlag (evAdd ||| evClear ||| evReceipt) evReceipt = true)
  kind := Or.inl (by decide : containsFlag (evAdd ||| evClear ||| evReceipt) evAdd = true)

/-- The awakener closes its clone of the selector when it cannot be set up. -/
theorem kqueueAwakener_allOrNothing (hclean : Clean process) (selector : Selector) (id : Id) :
    AllOrNothing selector.kq (Kqueue.Awakener.new selector id) process := by
  unfold AllOrNothing Traceless Kqueue.Awakener.new
  rcases hdup : dup selector.kq process with ⟨err | fd, after⟩
  · have hclone : selector.tryClone process = (.error err, after) := bind_of_error hdup
    exact failsIn_of_error (bind_of_error hclone) (by rw [dup_error hdup])
  · have hclone : selector.tryClone process = (.ok ⟨fd⟩, after) := bind_of_ok hdup
    obtain ⟨hclosed, hconfined⟩ := Confined.of_dup hdup
    rw [failsIn_bind_of_ok hclone]
    refine FailsIn.bind_of_succeeds (FailsIn.cleaningUp ?_) fun _ _ => succeeds_pure _
    intro err later hrun
    rw [keventRegister_error (isChange_setupAwakener id) hrun]
    exact (hconfined.close hclean hclosed).view selector.kq

/-- The ends of the pipe are closed when the receiver cannot be registered, but not when one of them
cannot be made non-blocking. -/
theorem pipeAwakener_allOrNothing_iff (hclean : Clean process) (selector : Selector) (id : Id) :
    AllOrNothing selector.kq (Pipe.Awakener.new selector id) process
      ↔ ∀ fds after, pipe process = (.ok fds, after) →
        process.answers.errno (.setNonblocking fds.1) = none
          ∧ process.answers.errno (.setNonblocking fds.2) = none := by
  rw [← traceless_newPipe_iff (Process.view selector.kq) opened_of_view]
  unfold AllOrNothing Pipe.Awakener.new
  refine ⟨FailsIn.of_bind, fun htraceless => ?_⟩
  rcases hrun : newPipe process with ⟨err | ⟨sender, receiver⟩, after⟩
  · exact failsIn_of_error (bind_of_error hrun) (htraceless err after hrun)
  · obtain ⟨between, hreceiver, hsender⟩ := pipe_ok (newPipe_ok hrun)
    have hclosed := opens_pipe.closed process _ after (newPipe_ok hrun)
    have hconfined : Confined [receiver.inner, sender.inner] process after :=
      (((Confined.refl process).of_openFile hreceiver).of_openFile hsender).mono
        (List.Perm.swap _ _ []).subset
    rw [Traceless, failsIn_bind_of_ok hrun]
    refine FailsIn.bind_of_succeeds (FailsIn.cleaningUp ?_) fun _ _ => succeeds_pure _
    intro err later hregister
    rw [of, register_readable_eq] at hregister
    rw [keventRegister_error (isChange_changeOf _ _) hregister]
    have hview := (hconfined.close hclean (closed_of_notMem (hclosed _ (by simp)))).close hclean
      (closed_of_notMem (hclosed _ (by simp)))
    exact hview.view selector.kq

/-- A kqueue that has been opened for `fd`, in a process that has changed no further than that. -/
def Owned (fd : RawFd) (process after : Process KernelQueue) : Prop :=
  Confined [fd] process after ∧ ∃ file, after.files fd = some file ∧ process.nextFile ≤ file

theorem maintains_keventRegister {kq : RawFd} {changes : List Kevent}
    (hchanges : kq = fd ∨ ∃ change, changes = [change] ∧ change.IsChange
      ∧ change.key ∈ descriptorKeys fd) :
    Maintains (Owned fd process) (of (keventRegister kq changes []) : SysM KernelQueue Unit) := by
  rintro after ⟨hconfined, file, hfile, hnew⟩
  change Owned fd process (keventRegister kq changes [] after).2
  rcases keventRegister_snd kq changes [] after with hsame | ⟨kqueue, hqueue, hset⟩
  · rw [hsame]
    exact ⟨hconfined, file, hfile, hnew⟩
  · rw [hset]
    refine ⟨hconfined.setQueue hqueue ?_, file, ?_, hnew⟩
    · rcases hchanges with rfl | ⟨change, rfl, hchange, hkey⟩
      · exact Or.inl ⟨file, hfile, hnew⟩
      · obtain ⟨knote, hknote⟩ := setKnote_of_keventRegister kqueue hchange kq []
        rw [hknote]
        exact Or.inr (agreeOff_setKnote (List.mem_singleton_self fd) hkey kqueue knote)
    · obtain ⟨queues, hqueues⟩ := after.exists_setQueue kq _
      rw [hqueues]
      exact hfile

/-- The new kqueue is closed when anything fails. -/
theorem kqueueSignals_allOrNothing (hclean : Clean process) (selector : Selector)
    (signals : SignalSet) (id : Id) :
    AllOrNothing selector.kq (Kqueue.Signals.new selector signals id) process := by
  unfold AllOrNothing Traceless Kqueue.Signals.new
  rcases createSigset_cases signals process with ⟨-, hset⟩ | ⟨-, err, hset⟩
  · rw [failsIn_bind_of_ok hset]
    rcases hopen : openFile (some process.answers.newQueue) process with ⟨err | fd, after⟩
    · have hnew : Selector.new process = (.error err, after) := bind_of_error hopen
      refine failsIn_of_error (bind_of_error hnew) ?_
      rw [(opens_openFile _).error process err after hopen]
    · have hnew : Selector.new process = (.ok ⟨fd⟩, after) := bind_of_ok hopen
      have hclosed := closed_of_openFile hopen
      have howned : Owned fd process after :=
        ⟨(Confined.refl process).of_openFile hopen, _, files_of_openFile hopen, le_rfl⟩
      have hrestored (later : Process KernelQueue) (h : Owned fd process later) :
          (close fd later).view selector.kq = process.view selector.kq :=
        (h.1.close hclean hclosed).view selector.kq
      rw [failsIn_bind_of_ok hnew]
      refine FailsIn.bind_of_succeeds (FailsIn.cleaningUp ?_) fun _ _ => succeeds_pure _
      have hsignals : Maintains (Owned fd process)
          (of (Selector.registerSignals ⟨fd⟩ id signals)) :=
        maintains_keventRegister (Or.inl rfl)
      have hregister : Maintains (Owned fd process)
          (of (selector.register fd id Interests.readable RegisterOption.level)) := by
        rw [funext (register_readable_eq selector fd id RegisterOption.level)]
        apply maintains_keventRegister
        exact Or.inr ⟨_, rfl, isChange_changeOf _ _, List.mem_cons_self⟩
      apply (FailsIn.of_maintains hsignals howned hrestored).bind hsignals howned
      intro _ between hbetween
      apply (FailsIn.of_maintains hregister hbetween hrestored).bind hregister hbetween
      intro _ between hbetween err later hrun
      cases hmask : between.answers.errno .sigprocmask with
      | none =>
          rw [blockSignals_of_none hmask] at hrun
          cases hrun
      | some errno =>
          rw [blockSignals_of_some hmask] at hrun
          exact (Prod.mk.inj hrun).2 ▸ hrestored between hbetween
  · exact failsIn_of_error (bind_of_error hset) rfl

end Kqueue

/-- **All-or-nothing constructors.** The awakener and the signal handler of kqueue always are. The
others are if and only if no call fails while a descriptor is a bare number. -/
theorem allOrNothing_iff (epoll : Process Epoll.Table) (kqueue : Process Kqueue.KernelQueue)
    (hclean : Clean kqueue) (epollSelector : Epoll.Selector) (kqueueSelector : Kqueue.Selector)
    (signals : SignalSet) (id : Id) :
    (AllOrNothing epollSelector.epfd (Eventfd.Awakener.new epollSelector id) epoll
      ↔ ∀ fd after, Eventfd.eventfd epoll = (.ok fd, after) →
        epollCtlAdd epollSelector fd id RegisterOption.edge after ≠ -1)
    ∧ (AllOrNothing epollSelector.epfd (Signalfd.Signals.new epollSelector signals id) epoll
      ↔ (SigsetSucceeds signals epoll → ∀ fd after,
        Signalfd.signalfd (signals.toList.map Signal.intoRaw) epoll = (.ok fd, after) →
        epollCtlAdd epollSelector fd id RegisterOption.level after ≠ -1
          ∧ epoll.answers.errno .sigprocmask = none))
    ∧ AllOrNothing kqueueSelector.kq (Kqueue.Awakener.new kqueueSelector id) kqueue
    ∧ (AllOrNothing kqueueSelector.kq (Pipe.Awakener.new kqueueSelector id) kqueue
      ↔ ∀ fds after, pipe kqueue = (.ok fds, after) →
        kqueue.answers.errno (.setNonblocking fds.1) = none
          ∧ kqueue.answers.errno (.setNonblocking fds.2) = none)
    ∧ AllOrNothing kqueueSelector.kq (Kqueue.Signals.new kqueueSelector signals id) kqueue :=
  ⟨eventfd_allOrNothing_iff epollSelector id epoll,
    signalfd_allOrNothing_iff epollSelector signals id epoll,
    kqueueAwakener_allOrNothing hclean kqueueSelector id,
    pipeAwakener_allOrNothing_iff hclean kqueueSelector id,
    kqueueSignals_allOrNothing hclean kqueueSelector signals id⟩

/-- On kqueue, `sigprocmask` fails when the handler is registered, and takes everything back. -/
theorem allOrNothing_sigprocmask_fails :
    let errno : Call → Option Int32
      | .sigprocmask => some 22
      | _ => none
    let queue := Kqueue.KernelQueue.empty
    let process := (Process.new ⟨firstClosed [3, 4], errno, 36, queue⟩).openFile 3 (some queue)
    AllOrNothing 3 (Kqueue.Signals.new ⟨3⟩ ⟨7⟩ ⟨1⟩) process := by
  intro errno queue process
  have hclean : Clean process := by
    intro fd _ file kqueue hqueue key _
    by_cases hfile : file = 0
    · subst hfile
      obtain rfl : queue = kqueue := Option.some.inj hqueue
      rfl
    · have hnone : process.queues file = none := Function.update_of_ne hfile _ _
      rw [hnone] at hqueue
      cases hqueue
  have hall := allOrNothing_iff (Process.new ⟨firstClosed [3], fun _ => none, 115, .empty⟩) process
    hclean ⟨5⟩ ⟨3⟩ ⟨7⟩ ⟨1⟩
  exact hall.2.2.2.2

/-- On epoll, `epoll_ctl` fails for want of space, and the `eventfd` stays open. -/
theorem eventfd_register_fails_leaks :
    let errno : Call → Option Int32
      | .epollCtl _ _ => some 28
      | _ => none
    let process := (Process.new ⟨firstClosed [3, 4], errno, 115, Epoll.Table.empty⟩).openFile 3
      (some Epoll.Table.empty)
    (Eventfd.Awakener.new ⟨3⟩ ⟨1⟩ process).1 = .error ⟨28⟩
      ∧ process.files 4 = none ∧ (Eventfd.Awakener.new ⟨3⟩ ⟨1⟩ process).2.files 4 = some 1
      ∧ ¬ AllOrNothing 3 (Eventfd.Awakener.new ⟨3⟩ ⟨1⟩) process := by
  intro errno process
  have herr : (Eventfd.Awakener.new ⟨3⟩ ⟨1⟩ process).1 = .error ⟨28⟩ := by decide
  have hopen : (Eventfd.Awakener.new ⟨3⟩ ⟨1⟩ process).2.files 4 = some 1 := by decide
  refine ⟨herr, rfl, hopen, fun hall => ?_⟩
  have hview := hall ⟨28⟩ _ (Prod.ext herr rfl)
  cases hopen.symm.trans (congrFun (Prod.mk.inj hview).1 4)

end Gaea.Sys
