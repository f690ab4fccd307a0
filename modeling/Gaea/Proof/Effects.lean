import Gaea.Proof.Asking

/-!
# What opens no descriptors

Requests, polls and wake ups change filters, and leave the descriptors as they are. What is dropped
closes its descriptors, whose filters are gone.
-/

namespace Gaea.Sys

open Kqueue

/-! ## What an event does to filters -/

/-- The descriptor under which a handle is registered, and the filters that it asserts are not asked
for. -/
def Handle.evented : Handle → Option (RawFd × List Filter)
  | .raw fd => some (fd, [])
  | .stream inner => some (inner.stream, [])
  | .listener inner => some (inner.listener, [.write])
  | .socket inner => some (inner.socket, [])
  | .sender inner => some (inner.inner, [.read])
  | .receiver inner => some (inner.inner, [.write])
  | .queue _ | .awakener _ | .pipeAwakener _ | .signals _ => none

def Action.registration : Action → Option Registration
  | .register registration | .reregister registration => some registration
  | .deregister => none

/-- The filters that an event asks for, with the id. What is built asks for filters of its own
descriptors, and an assertion holds of what is performed. -/
def Occurrence.Asks : Occurrence → Key → Id → Prop
  | .built constructor handles, key, id =>
      constructor.Asks key id ∧ ∀ fd, key ∈ descriptorKeys fd → fd ∈ watchedOf handles
  | .failed constructor _, key, id => constructor.Asks key id ∧ ∀ fd, key ∉ descriptorKeys fd
  | .performed handle _ action, key, id =>
      ∃ fd excluded registration, handle.evented = some (fd, excluded)
        ∧ action.registration = some registration ∧ key.1 = identOf fd ∧ key.2 ∉ excluded
        ∧ wanted registration.interests key.2 = true ∧ id = registration.id
  | .woken awakener, key, id => key = userKey ∧ id = awakener.id
  | .dropped _, _, _ | .turned _ _, _, _ | .polled _, _, _ | .received _, _, _ | .system, _, _ =>
      False

/-- The filters that an event may take away. -/
def Occurrence.Clears : Occurrence → Key → Prop
  | .performed handle _ _, key | .dropped handle, key =>
      ∃ fd ∈ Owner.fds handle, key ∈ descriptorKeys fd
  | .polled _, _ | .received _, _ | .system, _ => True
  | .built _ _, _ | .failed _ _, _ | .turned _ _, _ | .woken _, _ => False

/-- What an event does that leaves the descriptors as they are: filters stay, or it takes them away,
or it asks for them. -/
structure Quiet (event : Occurrence) (process after : Process KernelQueue) : Prop where
  files_eq : after.files = process.files
  nextFile_eq : after.nextFile = process.nextFile
  newQueue_eq : ∀ key, after.answers.newQueue.knotes key = none
  entry_cases : ∀ file key, after.entry file key = process.entry file key
    ∨ event.Clears key ∧ after.entry file key = none
    ∨ ∃ knote, after.entry file key = some knote ∧ event.Asks key ⟨knote.udata⟩

/-! ## Requests -/

/-- The request that an action is, for a descriptor. -/
def Action.on (fd : RawFd) : Action → Request
  | .register registration => .register fd registration
  | .reregister registration => .reregister fd registration
  | .deregister => .deregister fd

theorem fdOf_on (fd : RawFd) (action : Action) : fdOf (action.on fd) = fd := by
  cases action <;> rfl

theorem perform_eventedFd (action : Action) (osQueue : OsQueue Selector) (fd : RawFd)
    (process : Process KernelQueue) :
    action.perform osQueue (EventedFd.mk fd) process
      = some (osQueue.selector.request (action.on fd) process) := by
  cases action <;> rfl

def Action.wants : Action → Filter → Bool
  | .register registration, filter | .reregister registration, filter =>
      wanted registration.interests filter
  | .deregister, _ => false

theorem Action.wants_eq {action : Action} {registration : Registration}
    (h : action.registration = some registration) (filter : Filter) :
    action.wants filter = wanted registration.interests filter := by
  cases action <;> cases h <;> rfl

/-- What is performed on a handle is a request for its descriptor, unless an assertion fails. -/
theorem perform_eq (handle : Handle) (osQueue : OsQueue Selector) (action : Action)
    (process : Process KernelQueue) :
    handle.perform osQueue action process
      = handle.evented.bind fun evented =>
        if evented.2.any action.wants then none
        else some (osQueue.selector.request (action.on evented.1) process) := by
  have hassert (filter : Filter) (fd : RawFd) :
      (if [filter].any action.wants then none
        else some (osQueue.selector.request (action.on fd) process))
      = debugAssert (!action.wants filter) (action.perform osQueue (EventedFd.mk fd) process) := by
    rw [perform_eventedFd, List.any_cons, List.any_nil, Bool.or_false, debugAssert]
    cases action.wants filter <;> rfl
  cases handle with
  | raw fd => exact perform_eventedFd action osQueue fd process
  | stream inner => exact perform_eventedFd action osQueue inner.stream process
  | socket inner => exact perform_eventedFd action osQueue inner.socket process
  | listener inner =>
      refine Eq.trans ?_ (hassert .write inner.listener).symm
      cases action <;> rfl
  | receiver inner =>
      refine Eq.trans ?_ (hassert .write inner.inner).symm
      cases action <;> rfl
  | sender inner =>
      refine Eq.trans ?_ (hassert .read inner.inner).symm
      cases action <;> rfl
  | queue inner => rfl
  | awakener inner => rfl
  | pipeAwakener inner => rfl
  | signals inner => rfl

theorem fds_of_evented {handle : Handle} {evented : RawFd × List Filter}
    (h : handle.evented = some evented) : Owner.fds handle = [evented.1] := by
  cases handle <;> cases h <;> rfl

/-- The descriptor of a handle on which something is performed is the only one it has. -/
theorem exists_of_perform {handle : Handle} {osQueue : OsQueue Selector} {action : Action}
    {process after : Process KernelQueue} {answer : Except IoError Unit}
    (h : handle.perform osQueue action process = some (answer, after)) :
    ∃ fd excluded, handle.evented = some (fd, excluded)
      ∧ (∀ filter ∈ excluded, action.wants filter = false)
      ∧ osQueue.selector.request (action.on fd) process = (answer, after) := by
  rw [perform_eq] at h
  obtain ⟨⟨fd, excluded⟩, hevented, hrun⟩ := Option.bind_eq_some_iff.mp h
  refine ⟨fd, excluded, hevented, ?_⟩
  by_cases hany : excluded.any action.wants = true
  · rw [if_pos hany] at hrun
    cases hrun
  · rw [if_neg hany] at hrun
    refine ⟨fun filter hmem => ?_, Option.some.inj hrun⟩
    exact eq_false_of_ne_true fun hwants => hany (List.any_eq_true.mpr ⟨filter, hmem, hwants⟩)

/-- What a request asks for. -/
theorem asked_on {fd : RawFd} {action : Action} {filter : Filter} {knote : Knote}
    (h : asked (action.on fd) filter = some knote) :
    ∃ registration, action.registration = some registration
      ∧ wanted registration.interests filter = true ∧ knote = knoteOf registration := by
  cases action with
  | register registration | reregister registration =>
      refine ⟨registration, rfl, ?_⟩
      simp only [Action.on, asked] at h
      split_ifs at h with hwanted
      exact ⟨hwanted, (Option.some.inj h).symm⟩
  | deregister => cases h

/-- A request concerns filters of its descriptor, and those that it concerns are what it asks for,
unless they stay as they are. -/
theorem entry_request (selector : Selector) (request : Request) (process : Process KernelQueue)
    (file : File) (key : Key) :
    (selector.request request process).2.entry file key = process.entry file key
      ∨ ∃ filter ∈ filtersOf request, key = (identOf (fdOf request), filter)
        ∧ (selector.request request process).2.entry file key = asked request filter := by
  rw [request_eq]
  have hchanges : ∀ change ∈ (filtersOf request).map (changeOf request), change.IsChange :=
    fun change hchange => isChange_of_mem hchange
  rcases entry_keventRegister hchanges selector.kq (ignoredOf request) process file key with
    hsame | ⟨change, hchange, hkey, knote, hentry⟩
  · exact Or.inl hsame
  · obtain ⟨filter, hmem, rfl⟩ := List.mem_map.mp hchange
    refine Or.inr ⟨filter, hmem, ?_, ?_⟩
    · rw [← hkey, key_changeOf]
    · rw [hentry, entry_changeOf request (ne_user_of_mem hmem)]

section Quiet

variable {process after : Process KernelQueue}

theorem quiet_perform (htidy : Tidy process) {handle : Handle} {osQueue : OsQueue Selector}
    {action : Action} {answer : Except IoError Unit}
    (hrun : handle.perform osQueue action process = some (answer, after)) :
    Quiet (.performed handle osQueue action) process after := by
  obtain ⟨fd, excluded, hevented, hexcluded, hrequest⟩ := exists_of_perform hrun
  have hafter : (osQueue.selector.request (action.on fd) process).2 = after := by rw [hrequest]
  obtain ⟨queues, hqueues⟩ : ∃ queues, after = { process with queues } := by
    rw [← hafter, request_eq]
    exact exists_keventRegister _ _ _ _
  refine ⟨by rw [hqueues], by rw [hqueues], by rw [hqueues]; exact htidy.newQueue, ?_⟩
  intro file key
  have hentry := entry_request osQueue.selector (action.on fd) process file key
  rw [hafter, fdOf_on] at hentry
  rcases hentry with hsame | ⟨filter, hfilter, rfl, hasked⟩
  · exact Or.inl hsame
  · cases hknote : asked (action.on fd) filter with
    | none =>
        have hkey : (identOf fd, filter) ∈ descriptorKeys fd := by
          have hmem := (filtersOf_sublist (action.on fd)).subset hfilter
          rcases List.mem_pair.mp hmem with rfl | rfl
          · exact List.mem_cons_of_mem _ List.mem_cons_self
          · exact List.mem_cons_self
        have hfd : fd ∈ Owner.fds handle := by
          rw [fds_of_evented hevented]
          exact List.mem_singleton_self fd
        exact Or.inr (Or.inl ⟨⟨fd, hfd, hkey⟩, hasked.trans hknote⟩)
    | some knote =>
        obtain ⟨registration, haction, hwanted, rfl⟩ := asked_on hknote
        have hwants : action.wants filter = true := by
          rw [Action.wants_eq haction]
          exact hwanted
        have hnot : filter ∉ excluded := fun hmem =>
          Bool.false_ne_true ((hexcluded filter hmem).symm.trans hwants)
        exact Or.inr (Or.inr ⟨_, hasked.trans hknote, fd, excluded, registration, hevented, haction,
          rfl, hnot, hwanted, rfl⟩)

/-! ## Wake ups -/

def wakeChange (awakener : Awakener) : Kevent :=
  { newKevent 0 .user (evAdd ||| evReceipt) awakener.id with fflags := noteTrigger }

theorem isChange_wakeChange (awakener : Awakener) : (wakeChange awakener).IsChange where
  receipt := (by decide : containsFlag (evAdd ||| evReceipt) evReceipt = true)
  kind := Or.inl (by decide : containsFlag (evAdd ||| evReceipt) evAdd = true)

/-- A wake up adds the filter once more. -/
theorem quiet_wake (htidy : Tidy process) (awakener : Awakener) :
    Quiet (.woken awakener) process (awakener.wake process).2 := by
  have hchanges : ∀ change ∈ [wakeChange awakener], change.IsChange := by
    rw [List.forall_mem_singleton]
    exact isChange_wakeChange awakener
  have hadd : containsFlag (wakeChange awakener).flags evAdd = true :=
    (by decide : containsFlag (evAdd ||| evReceipt) evAdd = true)
  obtain ⟨queues, hqueues⟩ :=
    exists_keventRegister awakener.selector.kq [wakeChange awakener] [] process
  have hsnd : (awakener.wake process).2 = { process with queues } := hqueues
  refine ⟨by rw [hsnd], by rw [hsnd], by rw [hsnd]; exact htidy.newQueue, ?_⟩
  intro file key
  rcases entry_keventRegister hchanges awakener.selector.kq [] process file key with
    hsame | ⟨change, hchange, hkey, knote, hentry⟩
  · exact Or.inl hsame
  · obtain rfl := List.mem_singleton.mp hchange
    rw [Kevent.entry, if_pos hadd] at hentry
    exact Or.inr (Or.inr ⟨_, hentry, hkey.symm,
      congrArg Id.mk (Kevent.udata_added (wakeChange awakener) knote)⟩)

/-! ## Polls -/

theorem entry_system (hmove : SystemMove process after) (file : File) (key : Key) :
    after.entry file key = process.entry file key ∨ after.entry file key = none := by
  have hrel := hmove.queues_rel file
  unfold Process.entry
  generalize process.queues file = before at hrel
  generalize after.queues file = later at hrel
  cases hrel with
  | none => exact Or.inl rfl
  | some hknotes => exact hknotes key

theorem quiet_system (hmove : SystemMove process after) {event : Occurrence}
    (hclears : ∀ key, event.Clears key) : Quiet event process after := by
  refine ⟨hmove.files_eq, hmove.nextFile_eq, hmove.newQueue_eq, fun file key => ?_⟩
  rcases entry_system hmove file key with hsame | hnone
  · exact Or.inl hsame
  · exact Or.inr (Or.inl ⟨hclears key, hnone⟩)

theorem cases_of_fired {knote after : Option Knote} {n : Nat} (h : Fired knote n after) :
    after = knote ∨ (∃ fired ∈ knote, fired.isOneshot = true) ∧ after = none := by
  cases h with
  | quiet => exact Or.inl rfl
  | oneshot knote honeshot => exact Or.inr ⟨⟨knote, rfl, honeshot⟩, rfl⟩
  | repeated => exact Or.inl rfl

/-- A poll takes nothing but oneshots away. -/
theorem knotes_poll (kqueue : KernelQueue) (nevents : Nat) (key : Key) :
    (kqueue.kevent [] nevents).2.knotes key = kqueue.knotes key
      ∨ (∃ knote ∈ kqueue.knotes key, knote.isOneshot = true)
        ∧ (kqueue.kevent [] nevents).2.knotes key = none := by
  unfold KernelQueue.kevent
  cases kqueue.callError with
  | some errno => exact Or.inl rfl
  | none => exact cases_of_fired (fired_deliver kqueue nevents kqueue.active key)

theorem kevent_poll (kq : RawFd) (nevents : Nat)
    (timeout : Option (Timespec 64 64)) (process : Process KernelQueue) :
    (Kernel.kevent kq [] nevents timeout process).2 = process
      ∨ ∃ kqueue, process.queue kq = some kqueue
        ∧ (Kernel.kevent kq [] nevents timeout process).2
          = process.setQueue kq (kqueue.kevent [] nevents).2 := by
  cases hqueue : process.queue kq with
  | none =>
      simp only [Kernel.kevent, hqueue]
      exact Or.inl trivial
  | some kqueue =>
      cases herrno : process.answers.errno (.kevent kq) with
      | none =>
          simp only [Kernel.kevent, hqueue, herrno]
          exact Or.inr ⟨kqueue, rfl, rfl⟩
      | some errno =>
          simp only [Kernel.kevent, hqueue, herrno, List.isEmpty_nil, Bool.not_true, Bool.and_false]
          exact Or.inl rfl

/-- A call without changes takes oneshot filters away, and does nothing else. -/
theorem systemMove_kevent (htidy : Tidy process) (kq : RawFd) (nevents : Nat)
    (timeout : Option (Timespec 64 64)) :
    SystemMove process (Kernel.kevent kq [] nevents timeout process).2 := by
  have hstay (file : File) : Option.Rel
      (fun kqueue later : KernelQueue => ∀ key,
        later.knotes key = kqueue.knotes key ∨ later.knotes key = none)
      (process.queues file) (process.queues file) := by
    cases process.queues file with
    | none => exact .none
    | some kqueue => exact .some fun _ => Or.inl rfl
  rcases kevent_poll kq nevents timeout process with hsame | ⟨kqueue, hqueue, hset⟩
  · rw [hsame]
    exact ⟨rfl, rfl, hstay, htidy.newQueue⟩
  · obtain ⟨file, hfile, hkqueue⟩ := Option.bind_eq_some_iff.mp hqueue
    rw [hset, Process.setQueue_of_some hfile]
    refine ⟨rfl, rfl, fun file' => ?_, htidy.newQueue⟩
    dsimp only
    by_cases heq : file' = file
    · rw [heq, hkqueue, Function.update_self]
      exact .some fun key => (knotes_poll kqueue _ key).imp_right And.right
    · rw [Function.update_of_ne heq]
      exact hstay file'

theorem world_poll {ES : Type} [Sink ES] (osQueue : OsQueue Selector) (sink : ES)
    (timeout : Option Duration) (process : Process KernelQueue) :
    (osQueue.blockingPoll sink timeout process : Polled _ ES IoError _).world
      = (Kernel.kevent osQueue.selector.kq [] ((Sink.capacityLeft sink).min eventsCap)
        (timeout.map (timespecFromDuration 64 64)) process).2 := by
  change (osQueue.selector.select sink timeout process).2.1 = _
  unfold Selector.select
  dsimp only
  split_ifs <;> rfl

theorem systemMove_poll {ES : Type} [Sink ES] (htidy : Tidy process) (osQueue : OsQueue Selector)
    (sink : ES) (timeout : Option Duration) :
    SystemMove process
      (osQueue.blockingPoll sink timeout process : Polled _ ES IoError _).world := by
  rw [world_poll]
  exact systemMove_kevent htidy _ _ _

theorem world_receive (signals : Signals) (process : Process KernelQueue) :
    (signals.receive process).2 = (Kernel.kevent signals.kq.kq [] 1 (some ⟨0, 0⟩) process).2 := by
  unfold Signals.receive
  dsimp only
  split_ifs
  · rfl
  · rfl
  · split
    · split_ifs <;> rfl
    · rfl
  · rfl

theorem systemMove_receive (htidy : Tidy process) (signals : Signals) :
    SystemMove process (signals.receive process).2 := by
  rw [world_receive]
  exact systemMove_kevent htidy _ _ _

end Quiet

/-! ## Dropping -/

section Drop

variable {process : Process KernelQueue}

theorem opened_close (fd : RawFd) (process : Process KernelQueue) :
    (close fd process).opened = process.opened \ {fd} := by
  ext fd'
  by_cases heq : fd' = fd
  · simp [Process.opened, close, heq]
  · simp [Process.opened, close, heq]

theorem tidy_close (h : Tidy process) (fd : RawFd) : Tidy (close fd process) := by
  refine ⟨clean_iff.mpr fun fd' hclosed file key hkey => ?_, h.newQueue⟩
  rw [entry_close]
  split_ifs with hforgotten
  · rfl
  · have hne : fd' ≠ fd := by
      rintro rfl
      exact hforgotten hkey
    have hfiles : (close fd process).files fd' = process.files fd' :=
      Function.update_of_ne hne _ _
    exact clean_iff.mp h.clean fd' (hfiles ▸ hclosed) file key hkey

theorem entry_foldr_close (fds : List RawFd) (process : Process KernelQueue) (file : File)
    (key : Key) :
    (fds.foldr close process).entry file key
      = if ∃ fd ∈ fds, key ∈ descriptorKeys fd then none else process.entry file key := by
  induction fds with
  | nil => simp
  | cons fd fds ih =>
      rw [List.foldr_cons, entry_close, ih]
      simp only [List.exists_mem_cons_iff]
      by_cases hkey : key ∈ descriptorKeys fd
      · simp [hkey]
      · simp [hkey]

theorem foldr_close (fds : List RawFd) (h : Tidy process) :
    Tidy (fds.foldr close process)
      ∧ (fds.foldr close process).opened = process.opened \ {fd | fd ∈ fds}
      ∧ (fds.foldr close process).nextFile = process.nextFile
      ∧ ∀ fd, fd ∉ fds → (fds.foldr close process).files fd = process.files fd := by
  induction fds with
  | nil => exact ⟨h, by simp, rfl, fun _ _ => rfl⟩
  | cons fd fds ih =>
      obtain ⟨htidy, hopened, hnextFile, hfiles⟩ := ih
      refine ⟨tidy_close htidy fd, ?_, hnextFile, fun fd' hmem => ?_⟩
      · rw [List.foldr_cons, opened_close, hopened]
        ext fd'
        simp [not_or, and_comm, and_assoc]
      · obtain ⟨hne, hmem⟩ := List.ne_and_not_mem_of_not_mem_cons hmem
        rw [← hfiles fd' hmem]
        exact Function.update_of_ne hne _ _

end Drop

end Gaea.Sys
