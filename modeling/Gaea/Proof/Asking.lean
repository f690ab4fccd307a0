import Gaea.Proof.Openings
import Gaea.Sys.UserFilter
import Gaea.Sys.SignalDelivery

/-!
# What constructors ask for

The filters that are there after a constructor were there before, or the constructor has asked for
them, with the id that it was given. It has done so even if it fails, but then no filters of
descriptors are left.
-/

namespace Gaea.Sys

open Fallible Kqueue

/-- The filters that a constructor may ask for, with the id. -/
def Constructor.Asks : Constructor → Key → Id → Prop
  | .newAwakener _ id, key, id' => key = userKey ∧ id' = id
  | .newPipeAwakener _ id, key, id' => key.2 = .read ∧ id' = id
  | .newSignals _ signals id, key, id' =>
      (key.2 = .read ∨ ∃ signal ∈ signals.toList, key = signalKey signal.intoRaw) ∧ id' = id
  | .raw, _, _ | .connect _, _, _ | .bind _, _, _ | .tryClone _, _, _ | .accept _ _, _, _
  | .bindUdp _, _, _ | .newPipe, _, _ | .newQueue, _, _ | .cloneAwakener _, _, _
  | .clonePipeAwakener _, _, _ => False

/-- A process whose filters are those of an earlier one, or are asked for. Those of new files, and
those of descriptors, may be gone. -/
structure Grows (asks : Key → Id → Prop) (process after : Process KernelQueue) : Prop where
  nextFile_le : process.nextFile ≤ after.nextFile
  answers_eq : after.answers = process.answers
  entry_cases : ∀ file key, after.entry file key = process.entry file key
    ∨ after.entry file key = none
      ∧ (process.nextFile ≤ file ∨ ∃ fd, key ∈ descriptorKeys fd)
    ∨ ∃ knote, after.entry file key = some knote ∧ asks key ⟨knote.udata⟩

section Grows

variable {asks : Key → Id → Prop} {process between after : Process KernelQueue}

theorem Grows.refl (asks : Key → Id → Prop) (process : Process KernelQueue) :
    Grows asks process process :=
  ⟨le_rfl, rfl, fun _ _ => Or.inl rfl⟩

theorem Grows.trans (h : Grows asks process between) (h' : Grows asks between after) :
    Grows asks process after := by
  refine ⟨h.nextFile_le.trans h'.nextFile_le, h'.answers_eq.trans h.answers_eq, ?_⟩
  intro file key
  rcases h'.entry_cases file key with hsame | ⟨hnone, hle | hfd⟩ | hasked
  · rw [hsame]
    exact h.entry_cases file key
  · exact Or.inr (Or.inl ⟨hnone, Or.inl (h.nextFile_le.trans hle)⟩)
  · exact Or.inr (Or.inl ⟨hnone, Or.inr hfd⟩)
  · exact Or.inr (Or.inr hasked)

theorem maintains_grows {α : Type} {x : SysM KernelQueue α}
    (h : ∀ between, between.answers = process.answers → Grows asks between (x between).2) :
    Maintains (Grows asks process) x := fun between hgrows =>
  hgrows.trans (h between hgrows.answers_eq)

theorem maintains_openFile {queue : Option KernelQueue}
    (hqueue : ∀ kqueue ∈ queue, ∀ key, kqueue.knotes key = none) :
    Maintains (Grows asks process) (openFile queue) := by
  refine maintains_grows fun between _ => ?_
  cases halloc : between.answers.alloc between.files with
  | error err =>
      rw [openFile_of_error halloc]
      exact .refl asks between
  | ok fresh =>
      rw [openFile_of_ok halloc]
      refine ⟨Nat.le_succ _, rfl, fun file key => ?_⟩
      dsimp only
      rw [entry_openFile fun kqueue hkqueue => hqueue kqueue hkqueue key]
      split_ifs with heq
      · exact Or.inr (Or.inl ⟨rfl, Or.inl heq.ge⟩)
      · exact Or.inl rfl

theorem maintains_file : Maintains (Grows asks process) (openFile none) := maintains_openFile nofun

theorem maintains_pipe : Maintains (Grows asks process) pipe := by
  intro between h
  rcases hrun : pipe between with ⟨err | fds, after⟩
  · rw [opens_pipe.error between err after hrun]
    exact h
  · obtain ⟨middle, hfirst, hsecond⟩ := pipe_ok hrun
    have hmiddle : Grows asks process (openFile none between).2 := maintains_file between h
    rw [hfirst] at hmiddle
    have hafter : Grows asks process (openFile none middle).2 := maintains_file middle hmiddle
    rwa [hsecond] at hafter

theorem maintains_dup (fd : RawFd) : Maintains (Grows asks process) (dup fd) := by
  refine maintains_grows fun between _ => ?_
  rcases hrun : dup fd between with ⟨err | fd', after⟩
  · rw [dup_error hrun]
    exact .refl asks between
  · unfold dup at hrun
    split at hrun
    · cases hrun
    · cases hrun
    · obtain ⟨-, rfl⟩ := Prod.mk.inj hrun
      exact ⟨le_rfl, rfl, fun _ _ => Or.inl rfl⟩

theorem grows_close (fd : RawFd) (h : Grows asks process between) :
    Grows asks process (close fd between) := by
  refine h.trans ⟨le_rfl, rfl, fun file key => ?_⟩
  rw [entry_close]
  split_ifs with hkey
  · exact Or.inr (Or.inl ⟨rfl, Or.inr ⟨fd, hkey⟩⟩)
  · exact Or.inl rfl

theorem maintains_call (syscall : Call) : Maintains (Grows asks process) (call syscall) :=
  (keeps_call id syscall).maintains _

theorem maintains_blockSignals (set : List Int32) :
    Maintains (Grows asks process) (blockSignals set) := by
  refine maintains_grows fun between _ => ?_
  cases hmask : between.answers.errno .sigprocmask with
  | none =>
      rw [blockSignals_of_none hmask]
      exact ⟨le_rfl, rfl, fun _ _ => Or.inl rfl⟩
  | some errno =>
      rw [blockSignals_of_some hmask]
      exact .refl asks between

theorem maintains_kevent {changes : List Kevent} (hchanges : ∀ change ∈ changes, change.IsChange)
    (hasked : ∀ change ∈ changes,
      containsFlag change.flags evAdd = true ∧ asks change.key ⟨change.udata⟩)
    (kq : RawFd) (ignoredErrors : List Int64) :
    Maintains (Grows asks process) (of (keventRegister kq changes ignoredErrors)) := by
  refine maintains_grows fun between _ => ?_
  change Grows asks between (keventRegister kq changes ignoredErrors between).2
  obtain ⟨queues, hqueues⟩ := exists_keventRegister kq changes ignoredErrors between
  refine ⟨by rw [hqueues], by rw [hqueues], fun file key => ?_⟩
  rcases entry_keventRegister hchanges kq ignoredErrors between file key with
    hsame | ⟨change, hchange, rfl, knote, hentry⟩
  · exact Or.inl hsame
  · obtain ⟨hadd, hasks⟩ := hasked change hchange
    rw [Kevent.entry, if_pos hadd] at hentry
    exact Or.inr (Or.inr ⟨_, hentry, change.udata_added knote ▸ hasks⟩)

theorem maintains_registerReadable (selector : Selector) {id : Id} (opt : RegisterOption)
    (hasks : ∀ key : Key, key.2 = .read → asks key id) (fd : RawFd) :
    Maintains (Grows asks process) (of (selector.register fd id Interests.readable opt)) := by
  have hwanted : wanted Interests.readable .read = true := by decide
  have hadd : containsFlag (readableChange fd id opt).flags evAdd = true := by
    rw [readableChange, changeOf, hwanted]
    exact (containsFlag_optToFlags opt true).2.1
  rw [funext (register_readable_eq selector fd id opt)]
  apply maintains_kevent
  · rw [List.forall_mem_singleton]
    exact isChange_changeOf _ _
  · rw [List.forall_mem_singleton]
    exact ⟨hadd, hasks _ rfl⟩

/-! ## Constructors -/

theorem maintains_newSelector (hnew : ∀ key, process.answers.newQueue.knotes key = none) :
    Maintains (Grows asks process) Selector.new := by
  have hkqueue : Maintains (Grows asks process) kqueue := by
    intro between h
    refine maintains_openFile ?_ between h
    rintro _ ⟨⟩ key
    rw [h.answers_eq]
    exact hnew key
  exact hkqueue.bind fun kq => maintains_pure _ _

theorem maintains_newSignals (hnew : ∀ key, process.answers.newQueue.knotes key = none)
    (selector : Selector) (signals : SignalSet) {id : Id}
    (hread : ∀ key : Key, key.2 = .read → asks key id)
    (hsignal : ∀ signal ∈ signals.toList, asks (signalKey signal.intoRaw) id) :
    Maintains (Grows asks process) (Kqueue.Signals.new selector signals id) := by
  have hregister (kq : Selector) :
      Maintains (Grows asks process) (of (kq.registerSignals id signals)) := by
    apply maintains_kevent
    · rw [List.forall_mem_map]
      intro signal _
      exact ⟨(by decide : containsFlag (evReceipt ||| evAdd) evReceipt = true),
        Or.inl (by decide : containsFlag (evReceipt ||| evAdd) evAdd = true)⟩
    · rw [List.forall_mem_map]
      intro signal hmem
      exact ⟨(by decide : containsFlag (evReceipt ||| evAdd) evAdd = true), hsignal signal hmem⟩
  refine ((keeps_createSigset (fun process => process) signals).maintains _).bind fun set => ?_
  refine (maintains_newSelector hnew).bind fun kq => ?_
  refine Maintains.bind ?_ fun _ => maintains_pure _ _
  refine Maintains.cleaningUp ?_ fun _ => grows_close kq.kq
  refine (hregister kq).bind fun _ => ?_
  refine (maintains_registerReadable selector _ hread kq.kq).bind fun _ => ?_
  exact maintains_blockSignals set

theorem maintains_newAwakener (selector : Selector) {id : Id} (hasks : asks userKey id) :
    Maintains (Grows asks process) (Kqueue.Awakener.new selector id) := by
  have hclone : Maintains (Grows asks process) selector.tryClone :=
    (maintains_dup _).bind fun _ => maintains_pure _ _
  have hsetup (clone : Selector) :
      Maintains (Grows asks process) (of (clone.setupAwakener id)) := by
    apply maintains_kevent
    · rw [List.forall_mem_singleton]
      exact isChange_setupAwakener id
    · rw [List.forall_mem_singleton]
      exact ⟨(by decide : containsFlag (evAdd ||| evClear ||| evReceipt) evAdd = true), hasks⟩
  refine hclone.bind fun clone => ?_
  refine Maintains.bind ?_ fun _ => maintains_pure _ _
  exact (hsetup clone).cleaningUp fun _ => grows_close clone.kq

theorem maintains_newPipe : Maintains (Grows asks process) newPipe :=
  maintains_pipe.bind fun _ => (maintains_call _).bind fun _ => (maintains_call _).bind fun _ =>
    maintains_pure _ _

theorem maintains_newPipeAwakener (selector : Selector) {id : Id}
    (hread : ∀ key : Key, key.2 = .read → asks key id) :
    Maintains (Grows asks process) (Pipe.Awakener.new selector id) := by
  refine maintains_newPipe.bind fun ends => ?_
  refine Maintains.bind ?_ fun _ => maintains_pure _ _
  refine (maintains_registerReadable selector _ hread ends.2.inner).cleaningUp fun _ h => ?_
  exact grows_close ends.1.inner (grows_close ends.2.inner h)

end Grows

theorem maintains_run {process : Process KernelQueue}
    (hnew : ∀ key, process.answers.newQueue.knotes key = none) (constructor : Constructor) :
    Maintains (Grows constructor.Asks process) constructor.run := by
  have hguarded {asks : Key → Id → Prop} (syscall : Call) (fd : RawFd) :
      Maintains (Grows asks process) ((call syscall).cleaningUp (close fd)) :=
    (maintains_call syscall).cleaningUp fun _ => grows_close fd
  have hhandle {asks : Key → Id → Prop} {α : Type} {x : SysM KernelQueue α} (f : α → Handle)
      (hx : Maintains (Grows asks process) x) :
      Maintains (Grows asks process) (do return [f (← x)]) :=
    hx.bind fun _ => maintains_pure _ _
  cases constructor with
  | raw => exact hhandle _ maintains_file
  | connect address =>
      refine hhandle _ (maintains_file.bind fun fd => (maintains_call _).bind fun _ => ?_)
      exact ((keeps_connect id fd address).maintains _).bind fun _ => maintains_pure _ _
  | bind address =>
      refine hhandle _ (maintains_file.bind fun fd => (maintains_call _).bind fun _ => ?_)
      refine (maintains_call _).bind fun _ => (maintains_call _).bind fun _ => ?_
      exact (maintains_call _).bind fun _ => (maintains_call _).bind fun _ => maintains_pure _ _
  | tryClone listener =>
      exact hhandle _ ((maintains_dup _).bind fun _ => maintains_pure _ _)
  | accept listener peer =>
      refine hhandle (fun accepted : TcpStream × SocketAddr => .stream accepted.1) ?_
      exact maintains_file.bind fun fd => (hguarded _ fd).bind fun _ => maintains_pure _ _
  | bindUdp address =>
      refine hhandle _ (maintains_file.bind fun fd => (hguarded _ fd).bind fun _ => ?_)
      exact (hguarded _ fd).bind fun _ => maintains_pure _ _
  | newPipe => exact maintains_newPipe.bind fun _ => maintains_pure _ _
  | newQueue =>
      exact hhandle _ ((maintains_newSelector hnew).bind fun _ => maintains_pure _ _)
  | newAwakener osQueue id => exact hhandle _ (maintains_newAwakener osQueue.selector ⟨rfl, rfl⟩)
  | cloneAwakener awakener =>
      refine hhandle _ (Maintains.bind ?_ fun _ => maintains_pure _ _)
      exact (maintains_dup _).bind fun _ => maintains_pure _ _
  | newPipeAwakener osQueue id =>
      exact hhandle _ (maintains_newPipeAwakener osQueue.selector fun _ hread => ⟨hread, rfl⟩)
  | clonePipeAwakener awakener =>
      refine hhandle _ ((maintains_dup _).bind fun sender => Maintains.bind ?_ fun _ =>
        maintains_pure _ _)
      exact (maintains_dup _).cleaningUp fun _ => grows_close sender
  | newSignals osQueue signals id =>
      exact hhandle _ (maintains_newSignals hnew osQueue.selector signals
        (fun _ hread => ⟨Or.inl hread, rfl⟩) fun signal hmem => ⟨Or.inr ⟨signal, hmem, rfl⟩, rfl⟩)

/-- What opens descriptors and asks for filters has asked for those that are new. -/
theorem entry_of_extends {process after : Process KernelQueue} {fds watched : List RawFd}
    {asks : Key → Id → Prop} (hextends : Extends fds watched process after)
    (hgrows : Grows asks process after) (file : File) (key : Key) :
    after.entry file key = process.entry file key
      ∨ process.nextFile ≤ file ∧ after.entry file key = none
      ∨ ∃ knote, after.entry file key = some knote ∧ asks key ⟨knote.udata⟩
        ∧ ∀ fd, key ∈ descriptorKeys fd → fd ∈ watched := by
  by_cases hwatched : ∀ fd, key ∈ descriptorKeys fd → fd ∈ watched
  · rcases hgrows.entry_cases file key with hsame | ⟨hnone, hle | ⟨fd, hkey⟩⟩ | ⟨knote, hasked⟩
    · exact Or.inl hsame
    · exact Or.inr (Or.inl ⟨hle, hnone⟩)
    · -- a new descriptor that is closed again had no filters before
      have hclosed := hextends.closed fd (hextends.watched_subset (hwatched fd hkey))
      have hbefore := clean_iff.mp hextends.tidy_before.clean fd hclosed file key hkey
      exact Or.inl (hnone.trans hbefore.symm)
    · exact Or.inr (Or.inr ⟨knote, hasked.1, hasked.2, hwatched⟩)
  · push Not at hwatched
    obtain ⟨fd, hkey, hfd⟩ := hwatched
    rcases hextends.entry_eq fd hfd file key hkey with hsame | hnew
    · exact Or.inl hsame
    · exact Or.inr (Or.inl hnew)

end Gaea.Sys
