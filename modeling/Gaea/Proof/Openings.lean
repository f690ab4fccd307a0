import Gaea.Proof.AllOrNothing
import Gaea.Sys.Program

/-!
# What constructors open

What a constructor does, as far as descriptors are concerned, is to open some that were closed. It
leaves the others alone, and their filters. When it fails, the new descriptors have been closed
again, or they are lost.
-/

namespace Gaea.Sys

open Fallible Kqueue

/-! ## Entries -/

/-- The filter that the kqueue of a file has under a key. -/
def Process.entry (process : Process KernelQueue) (file : File) (key : Key) : Option Knote :=
  (process.queues file).bind fun kqueue => kqueue.knotes key

section Entry

variable {process : Process KernelQueue} {fd : RawFd} {file : File} {key : Key}

theorem entry_openFile {queue : Option KernelQueue}
    (hqueue : ∀ kqueue ∈ queue, kqueue.knotes key = none) :
    (process.openFile fd queue).entry file key
      = if file = process.nextFile then none else process.entry file key := by
  unfold Process.entry Process.openFile
  dsimp only
  split_ifs with heq
  · rw [heq, Function.update_self]
    exact Option.bind_eq_none_iff.mpr hqueue
  · rw [Function.update_of_ne heq]

theorem entry_close :
    (close fd process).entry file key
      = if key ∈ descriptorKeys fd then none else process.entry file key := by
  unfold Process.entry close KernelQueue.forget
  dsimp only
  cases process.queues file with
  | none => exact (ite_self none).symm
  | some kqueue => rfl

/-- The kqueue of another file stays what it was. -/
theorem entry_setQueue {kqueue : KernelQueue} (hqueue : process.queue fd = some kqueue)
    (after : KernelQueue) :
    (process.setQueue fd after).entry file key = process.entry file key
      ∨ process.entry file key = kqueue.knotes key
        ∧ (process.setQueue fd after).entry file key = after.knotes key := by
  obtain ⟨file', hfile, hkqueue⟩ := Option.bind_eq_some_iff.mp hqueue
  rw [Process.setQueue_of_some hfile, Process.entry, Process.entry]
  dsimp only
  by_cases heq : file = file'
  · rw [heq, Function.update_self, hkqueue]
    exact Or.inr ⟨rfl, rfl⟩
  · rw [Function.update_of_ne heq]
    exact Or.inl rfl

end Entry

theorem fst_of_mem_descriptorKeys {fd : RawFd} {key : Key} (h : key ∈ descriptorKeys fd) :
    key.1 = identOf fd := by
  rcases List.mem_pair.mp h with rfl | rfl <;> rfl

theorem snd_of_mem_descriptorKeys {fd : RawFd} {key : Key} (h : key ∈ descriptorKeys fd) :
    key.2 = .read ∨ key.2 = .write := by
  rcases List.mem_pair.mp h with rfl | rfl
  · exact Or.inl rfl
  · exact Or.inr rfl

theorem eq_of_mem_descriptorKeys {fd fd' : RawFd} {key : Key} (h : key ∈ descriptorKeys fd)
    (h' : key ∈ descriptorKeys fd') : fd = fd' :=
  identOf_injective ((fst_of_mem_descriptorKeys h).symm.trans (fst_of_mem_descriptorKeys h'))

theorem clean_iff {process : Process KernelQueue} :
    Clean process ↔ ∀ fd, process.files fd = none → ∀ file, ∀ key ∈ descriptorKeys fd,
      process.entry file key = none := by
  refine forall₂_congr fun fd _ => forall_congr' fun file => ?_
  constructor
  · intro hclean key hkey
    exact Option.bind_eq_none_iff.mpr fun kqueue hqueue => hclean kqueue hqueue key hkey
  · intro hentry kqueue hqueue key hkey
    exact Option.bind_eq_none_iff.mp (hentry key hkey) kqueue hqueue

/-! ## Changes of a kqueue -/

section Changes

variable {kqueue : KernelQueue} {changes : List Kevent} {key : Key}

theorem knotes_change (change : Kevent) :
    (kqueue.change change).2.knotes key = kqueue.knotes key
      ∨ change.key = key
        ∧ ∃ knote, (kqueue.change change).2.knotes key = change.entry knote := by
  unfold KernelQueue.change Kevent.entry
  by_cases hkey : change.key = key
  · subst hkey
    split
    · exact Or.inl rfl
    · split_ifs
      · exact Or.inr ⟨rfl, _, Function.update_self _ _ _⟩
      · exact Or.inr ⟨rfl, none, Function.update_self _ _ _⟩
      · exact Or.inl rfl
      · exact Or.inl rfl
  · refine Or.inl ?_
    split
    · rfl
    · split_ifs
      · exact KernelQueue.knotes_setKnote_of_ne (Ne.symm hkey) _
      · exact KernelQueue.knotes_setKnote_of_ne (Ne.symm hkey) _
      · rfl
      · rfl

theorem knotes_makeChanges :
    (kqueue.makeChanges changes).2.knotes key = kqueue.knotes key
      ∨ ∃ change ∈ changes, change.key = key
        ∧ ∃ knote, (kqueue.makeChanges changes).2.knotes key = change.entry knote := by
  induction changes generalizing kqueue with
  | nil => exact Or.inl rfl
  | cons first changes ih =>
      rw [KernelQueue.makeChanges]
      dsimp only
      rcases @ih (kqueue.change first).2 with hsame | ⟨change, hmem, hkey, hentry⟩
      · rw [hsame]
        rcases knotes_change first with hfirst | ⟨hkey, hentry⟩
        · exact Or.inl hfirst
        · exact Or.inr ⟨first, List.mem_cons_self, hkey, hentry⟩
      · exact Or.inr ⟨change, List.mem_cons_of_mem first hmem, hkey, hentry⟩

/-- Changes that ask for receipts touch nothing but their own filters. -/
theorem knotes_keventRegister (hchanges : ∀ change ∈ changes, change.IsChange) (kq : RawFd)
    (ignoredErrors : List Int64) :
    (keventRegister kq changes ignoredErrors kqueue).2.knotes key = kqueue.knotes key
      ∨ ∃ change ∈ changes, change.key = key ∧ ∃ knote,
        (keventRegister kq changes ignoredErrors kqueue).2.knotes key = change.entry knote := by
  have hsnd : (keventRegister kq changes ignoredErrors kqueue).2
      = (kqueue.kevent changes changes.length).2 := by
    unfold keventRegister
    dsimp only [Kernel.kevent]
    split <;> rfl
  rw [hsnd, KernelQueue.kevent]
  cases kqueue.callError with
  | some errno => exact Or.inl rfl
  | none =>
      cases changes with
      | nil => simp [KernelQueue.makeChanges, KernelQueue.deliver]
      | cons change changes =>
          have hreceipt := (hchanges change List.mem_cons_self).receipt
          have hmade : (kqueue.makeChanges (change :: changes)).2.knotes key = _ ∨ _ :=
            knotes_makeChanges
          simp only [KernelQueue.makeChanges, hreceipt, Bool.true_or, if_true] at hmade ⊢
          exact hmade

end Changes

section Kevent

variable {changes : List Kevent} {key : Key}

theorem entry_keventRegister (hchanges : ∀ change ∈ changes, change.IsChange) (kq : RawFd)
    (ignoredErrors : List Int64) (process : Process KernelQueue) (file : File) (key : Key) :
    (keventRegister kq changes ignoredErrors process).2.entry file key = process.entry file key
      ∨ ∃ change ∈ changes, change.key = key ∧ ∃ knote,
        (keventRegister kq changes ignoredErrors process).2.entry file key
          = change.entry knote := by
  rcases keventRegister_snd kq changes ignoredErrors process with hsame | ⟨kqueue, hqueue, hset⟩
  · rw [hsame]
    exact Or.inl rfl
  · rw [hset]
    rcases entry_setQueue hqueue (keventRegister kq changes ignoredErrors kqueue).2 with
      hsame | ⟨hbefore, hafter⟩
    · exact Or.inl hsame
    · rw [hbefore, hafter]
      exact knotes_keventRegister hchanges kq ignoredErrors

theorem entry_keventRegister_of_ne (hchanges : ∀ change ∈ changes, change.IsChange)
    (hne : ∀ change ∈ changes, change.key ≠ key) (kq : RawFd) (ignoredErrors : List Int64)
    (process : Process KernelQueue) (file : File) :
    (keventRegister kq changes ignoredErrors process).2.entry file key
      = process.entry file key := by
  rcases entry_keventRegister hchanges kq ignoredErrors process file key with
    hsame | ⟨change, hmem, hkey, -⟩
  · exact hsame
  · exact absurd hkey (hne change hmem)

/-- Nothing but the kqueues changes. -/
theorem exists_keventRegister (kq : RawFd) (changes : List Kevent) (ignoredErrors : List Int64)
    (process : Process KernelQueue) :
    ∃ queues, (keventRegister kq changes ignoredErrors process).2 = { process with queues } := by
  rcases keventRegister_snd kq changes ignoredErrors process with hsame | ⟨kqueue, -, hset⟩
  · exact ⟨process.queues, hsame⟩
  · rw [hset]
    exact process.exists_setQueue kq _

end Kevent

/-! ## New descriptors -/

/-- A process in which no closed descriptor has any filters left, nor has a new kqueue. -/
structure Tidy (process : Process KernelQueue) : Prop where
  clean : Clean process
  newQueue : ∀ key, process.answers.newQueue.knotes key = none

/-- A process in which some descriptors have been opened, some of which are watched by a kqueue, and
nothing has been done to others. A kqueue that is new watches nothing else. -/
structure Extends (fds watched : List RawFd) (process after : Process KernelQueue) : Prop where
  tidy_before : Tidy process
  nodup : fds.Nodup
  watched_subset : watched ⊆ fds
  closed : ∀ fd ∈ fds, process.files fd = none
  opened : ∀ fd ∈ fds, after.files fd ≠ none
  files_eq : ∀ fd, fd ∉ fds → after.files fd = process.files fd
  nextFile_le : process.nextFile ≤ after.nextFile
  answers_eq : after.answers = process.answers
  entry_eq : ∀ fd, fd ∉ watched → ∀ file, ∀ key ∈ descriptorKeys fd,
    after.entry file key = process.entry file key
      ∨ process.nextFile ≤ file ∧ after.entry file key = none

namespace Extends

variable {process between after : Process KernelQueue} {fds watched : List RawFd} {fd : RawFd}

theorem refl (h : Tidy process) : Extends [] [] process process where
  tidy_before := h
  nodup := List.nodup_nil
  watched_subset := List.nil_subset []
  closed := nofun
  opened := nofun
  files_eq _ _ := rfl
  nextFile_le := le_rfl
  answers_eq := rfl
  entry_eq _ _ _ _ _ := Or.inl rfl

theorem notMem_of_closed (h : Extends fds watched process after) (hclosed : after.files fd = none) :
    fd ∉ fds := fun hmem => h.opened fd hmem hclosed

theorem entry_eq_none (h : Extends fds watched process after) (hclosed : process.files fd = none)
    (hfd : fd ∉ watched) (file : File) {key : Key} (hkey : key ∈ descriptorKeys fd) :
    after.entry file key = none := by
  rcases h.entry_eq fd hfd file key hkey with hsame | ⟨-, hnone⟩
  · rw [hsame]
    exact clean_iff.mp h.tidy_before.clean fd hclosed file key hkey
  · exact hnone

theorem tidy (h : Extends fds watched process after) : Tidy after := by
  refine ⟨clean_iff.mpr fun fd hclosed file key hkey => ?_, h.answers_eq ▸ h.tidy_before.newQueue⟩
  have hnew := h.notMem_of_closed hclosed
  rw [h.files_eq fd hnew] at hclosed
  exact h.entry_eq_none hclosed (fun hmem => hnew (h.watched_subset hmem)) file hkey

theorem perm (h : Extends fds watched process after) {fds' : List RawFd} (hperm : fds'.Perm fds) :
    Extends fds' watched process after :=
  { h with
    nodup := hperm.nodup_iff.mpr h.nodup
    watched_subset := List.Subset.trans h.watched_subset hperm.symm.subset
    closed := fun fd hfd => h.closed fd (hperm.mem_iff.mp hfd)
    opened := fun fd hfd => h.opened fd (hperm.mem_iff.mp hfd)
    files_eq := fun fd hfd => h.files_eq fd fun hmem => hfd (hperm.mem_iff.mpr hmem) }

/-- A new descriptor may be watched from now on. -/
theorem watch (h : Extends fds watched process after) (hfd : fd ∈ fds) :
    Extends fds (fd :: watched) process after :=
  { h with
    watched_subset := List.cons_subset.mpr ⟨hfd, h.watched_subset⟩
    entry_eq := fun fd hfd => h.entry_eq fd (List.ne_and_not_mem_of_not_mem_cons hfd).2 }

/-- What is done to the kqueues, as far as it concerns descriptors, concerns the watched ones. -/
theorem of_files_eq (h : Extends fds watched process between)
    (hfiles : after.files = between.files) (hnextFile : after.nextFile = between.nextFile)
    (hanswers : after.answers = between.answers)
    (hentry : ∀ fd, fd ∉ watched → ∀ file, ∀ key ∈ descriptorKeys fd,
      after.entry file key = between.entry file key) : Extends fds watched process after :=
  { h with
    opened := hfiles ▸ h.opened
    files_eq := hfiles ▸ h.files_eq
    nextFile_le := hnextFile ▸ h.nextFile_le
    answers_eq := hanswers.trans h.answers_eq
    entry_eq := fun fd hfd file key hkey => by
      rw [hentry fd hfd file key hkey]
      exact h.entry_eq fd hfd file key hkey }

/-- A descriptor that has been opened after others. -/
theorem cons (h : Extends fds watched process between) (hclosed : between.files fd = none)
    {file : File} (hfiles : after.files = Function.update between.files fd (some file))
    (hnextFile : between.nextFile ≤ after.nextFile) (hanswers : after.answers = between.answers)
    (hentry : ∀ file key, after.entry file key = between.entry file key
      ∨ between.nextFile ≤ file ∧ after.entry file key = none) :
    Extends (fd :: fds) watched process after := by
  have hnew := h.notMem_of_closed hclosed
  have hsame (fd' : RawFd) (hne : fd' ≠ fd) : after.files fd' = between.files fd' := by
    rw [hfiles, Function.update_of_ne hne]
  have hself : after.files fd = some file := by rw [hfiles, Function.update_self]
  constructor
  · exact h.tidy_before
  · exact List.nodup_cons.mpr ⟨hnew, h.nodup⟩
  · exact List.Subset.trans h.watched_subset (List.subset_cons_self fd fds)
  · rw [List.forall_mem_cons]
    exact ⟨(h.files_eq fd hnew).symm.trans hclosed, h.closed⟩
  · rw [List.forall_mem_cons]
    refine ⟨by rw [hself]; exact Option.some_ne_none file, fun fd' hfd' => ?_⟩
    rw [hsame fd' fun heq => hnew (heq ▸ hfd')]
    exact h.opened fd' hfd'
  · intro fd' hfd'
    obtain ⟨hne, hfd'⟩ := List.ne_and_not_mem_of_not_mem_cons hfd'
    rw [hsame fd' hne, h.files_eq fd' hfd']
  · exact h.nextFile_le.trans hnextFile
  · exact hanswers.trans h.answers_eq
  · intro fd' hfd' file' key hkey
    rcases hentry file' key with hentry | ⟨hle, hnone⟩
    · rw [hentry]
      exact h.entry_eq fd' hfd' file' key hkey
    · exact Or.inr ⟨h.nextFile_le.trans hle, hnone⟩

theorem openFile (h : Extends fds watched process between) (hclosed : between.files fd = none)
    {queue : Option KernelQueue} (hqueue : ∀ kqueue ∈ queue, ∀ key, kqueue.knotes key = none) :
    Extends (fd :: fds) watched process (between.openFile fd queue) := by
  refine h.cons hclosed rfl (Nat.le_succ _) rfl fun file key => ?_
  rw [entry_openFile fun kqueue hkqueue => hqueue kqueue hkqueue key]
  split_ifs with heq
  · exact Or.inr ⟨heq.ge, rfl⟩
  · exact Or.inl rfl

/-- A new descriptor that is closed again is not watched any more. -/
theorem close (h : Extends (fd :: fds) watched process after) (hwatched : watched ⊆ [fd]) :
    Extends fds [] process (close fd after) := by
  obtain ⟨hnew, hnodup⟩ := List.nodup_cons.mp h.nodup
  obtain ⟨hclosed, hrest⟩ := List.forall_mem_cons.mp h.closed
  have hsame (fd' : RawFd) (hne : fd' ≠ fd) : (Sys.close fd after).files fd' = after.files fd' :=
    Function.update_of_ne hne _ _
  constructor
  · exact h.tidy_before
  · exact hnodup
  · exact List.nil_subset fds
  · exact hrest
  · intro fd' hfd'
    rw [hsame fd' fun heq => hnew (heq ▸ hfd')]
    exact h.opened fd' (List.mem_cons_of_mem fd hfd')
  · intro fd' hfd'
    by_cases heq : fd' = fd
    · rw [heq, hclosed]
      exact Function.update_self _ _ _
    · rw [hsame fd' heq]
      exact h.files_eq fd' (List.not_mem_cons_of_ne_of_not_mem heq hfd')
  · exact h.nextFile_le
  · exact h.answers_eq
  · intro fd' _ file key hkey
    rw [entry_close]
    by_cases heq : fd' = fd
    · rw [if_pos (heq ▸ hkey)]
      exact Or.inl (clean_iff.mp h.tidy_before.clean fd hclosed file key (heq ▸ hkey)).symm
    · rw [if_neg fun hforgotten => heq (eq_of_mem_descriptorKeys hkey hforgotten)]
      exact h.entry_eq fd' (fun hmem => heq (List.mem_singleton.mp (hwatched hmem))) file key hkey

/-- A list of changes concerns the watched descriptors if no other one has a filter in it. -/
theorem kevent (h : Extends fds watched process between) {changes : List Kevent}
    (hchanges : ∀ change ∈ changes, change.IsChange)
    (hkeys : ∀ change ∈ changes, ∀ fd, change.key ∈ descriptorKeys fd → fd ∈ watched) (kq : RawFd)
    (ignoredErrors : List Int64) :
    Extends fds watched process (keventRegister kq changes ignoredErrors between).2 := by
  obtain ⟨queues, hqueues⟩ := exists_keventRegister kq changes ignoredErrors between
  apply h.of_files_eq
  · rw [hqueues]
  · rw [hqueues]
  · rw [hqueues]
  · intro fd hfd file key hkey
    refine entry_keventRegister_of_ne hchanges (fun change hchange heq => hfd ?_) kq ignoredErrors
      between file
    exact hkeys change hchange fd (heq ▸ hkey)

end Extends

/-! ## Computations that open descriptors -/

section Ends

variable {process between : Process KernelQueue} {fds watched : List RawFd}

theorem ends_openFile (h : Extends fds watched process between) {queue : Option KernelQueue}
    (hqueue : ∀ kqueue ∈ queue, ∀ key, kqueue.knotes key = none) :
    Ends (fun fd => Extends (fd :: fds) watched process) (Extends fds watched process)
      (openFile queue) between := by
  constructor
  · intro fd after hrun
    cases halloc : between.answers.alloc between.files with
    | error err =>
        rw [openFile_of_error halloc] at hrun
        cases hrun
    | ok fresh =>
        rw [openFile_of_ok halloc] at hrun
        obtain ⟨hfd, rfl⟩ := Prod.mk.inj hrun
        obtain rfl := Except.ok.inj hfd
        exact h.openFile fresh.property hqueue
  · intro err after hrun
    rw [(opens_openFile queue).error between err after hrun]
    exact h

theorem ends_file (h : Extends fds watched process between) :
    Ends (fun fd => Extends (fd :: fds) watched process) (Extends fds watched process)
      (openFile none) between :=
  ends_openFile h nofun

theorem ends_pipe (h : Extends fds watched process between) :
    Ends (fun ends => Extends (ends.2 :: ends.1 :: fds) watched process)
      (Extends fds watched process) pipe between := by
  constructor
  · intro ends after hrun
    obtain ⟨middle, hfirst, hsecond⟩ := pipe_ok hrun
    exact (ends_file ((ends_file h).ensures _ _ hfirst)).ensures _ _ hsecond
  · intro err after hrun
    rw [opens_pipe.error between err after hrun]
    exact h

theorem ends_dup (h : Extends fds watched process between) (fd : RawFd) :
    Ends (fun fd' => Extends (fd' :: fds) watched process) (Extends fds watched process) (dup fd)
      between := by
  constructor
  · intro fd' after hrun
    unfold dup at hrun
    split at hrun
    · cases hrun
    · cases hrun
    · rename_i file fresh hfile _
      obtain ⟨hfd, rfl⟩ := Prod.mk.inj hrun
      obtain rfl := Except.ok.inj hfd
      exact h.cons fresh.property rfl le_rfl rfl fun _ _ => Or.inl rfl
  · intro err after hrun
    rw [dup_error hrun]
    exact h

theorem ends_call (h : Extends fds watched process between) (syscall : Call) :
    Ends (fun _ => Extends fds watched process) (Extends fds watched process) (call syscall)
      between :=
  ((keeps_call id syscall).maintains _).ends h

theorem ends_kevent (h : Extends fds watched process between) {changes : List Kevent}
    (hchanges : ∀ change ∈ changes, change.IsChange)
    (hkeys : ∀ change ∈ changes, ∀ fd, change.key ∈ descriptorKeys fd → fd ∈ watched) (kq : RawFd)
    (ignoredErrors : List Int64) :
    Ends (fun _ => Extends fds watched process) (Extends fds watched process)
      (of (keventRegister kq changes ignoredErrors)) between := by
  refine Maintains.ends (fun between h => ?_) h
  exact h.kevent hchanges hkeys kq ignoredErrors

theorem ends_setupAwakener (h : Extends fds watched process between) (selector : Selector)
    (id : Id) :
    Ends (fun _ => Extends fds watched process) (Extends fds watched process)
      (of (selector.setupAwakener id)) between := by
  apply ends_kevent h
  · rw [List.forall_mem_singleton]
    exact isChange_setupAwakener id
  · rw [List.forall_mem_singleton]
    intro fd hkey
    rcases snd_of_mem_descriptorKeys hkey with heq | heq <;> cases heq

theorem ends_registerSignals (h : Extends fds watched process between) (selector : Selector)
    (id : Id) (signals : SignalSet) :
    Ends (fun _ => Extends fds watched process) (Extends fds watched process)
      (of (selector.registerSignals id signals)) between := by
  apply ends_kevent h
  · rw [List.forall_mem_map]
    intro signal _
    exact ⟨(by decide : containsFlag (evReceipt ||| evAdd) evReceipt = true),
      Or.inl (by decide : containsFlag (evReceipt ||| evAdd) evAdd = true)⟩
  · rw [List.forall_mem_map]
    intro signal _ fd hkey
    rcases snd_of_mem_descriptorKeys hkey with heq | heq <;> cases heq

theorem ends_registerReadable (h : Extends fds watched process between) {fd : RawFd}
    (hfd : fd ∈ watched) (selector : Selector) (id : Id) (opt : RegisterOption) :
    Ends (fun _ => Extends fds watched process) (Extends fds watched process)
      (of (selector.register fd id Interests.readable opt)) between := by
  rw [funext (register_readable_eq selector fd id opt)]
  apply ends_kevent h
  · rw [List.forall_mem_singleton]
    exact isChange_changeOf _ _
  · rw [List.forall_mem_singleton]
    intro fd' hkey
    have hread : (readableChange fd id opt).key ∈ descriptorKeys fd := List.mem_cons_self
    exact eq_of_mem_descriptorKeys hread hkey ▸ hfd

theorem ends_blockSignals (h : Extends fds watched process between) (set : List Int32) :
    Ends (fun _ => Extends fds watched process) (Extends fds watched process) (blockSignals set)
      between := by
  refine Maintains.ends (fun between h => ?_) h
  cases hmask : between.answers.errno .sigprocmask with
  | none =>
      rw [blockSignals_of_none hmask]
      exact h.of_files_eq rfl rfl rfl fun _ _ _ _ _ => rfl
  | some errno =>
      rw [blockSignals_of_some hmask]
      exact h

end Ends

/-! ## Constructors -/

section Constructors

variable {process : Process KernelQueue}

/-- A process in which some descriptors may have been opened and forgotten. -/
def Loses (process after : Process KernelQueue) : Prop := ∃ lost, Extends lost [] process after

section

variable {α : Type} {x : SysM KernelQueue α} {P : α → Process KernelQueue → Prop}
  {between : Process KernelQueue} {fds watched : List RawFd} {fd : RawFd}

theorem lossy (h : Ends P (Extends fds [] process) x between) : Ends P (Loses process) x between :=
  h.imp (fun _ _ h => h) fun _ hextends => ⟨fds, hextends⟩

theorem guarded (hwatched : watched ⊆ [fd])
    (h : Ends P (Extends (fd :: fds) watched process) x between) :
    Ends P (Extends fds [] process) (x.cleaningUp (close fd)) between :=
  Ends.cleaningUp (h.imp (fun _ _ h => h) fun _ hextends => hextends.close hwatched)

theorem guardedCall (h : Extends (fd :: fds) [] process between) (syscall : Call) :
    Ends (fun _ => Extends (fd :: fds) [] process) (Extends fds [] process)
      ((call syscall).cleaningUp (close fd)) between :=
  guarded (List.nil_subset _) (ends_call h syscall)

end

/-! Once it is open, nothing but the value that is returned can close the descriptor. -/

theorem ends_connect (h : Tidy process) (address : SocketAddr) :
    Ends (fun stream => Extends [stream.stream] [] process) (Loses process)
      (TcpStream.connect address) process := by
  refine (lossy (ends_file (.refl h))).bind fun fd _ h => ?_
  refine (lossy (ends_call h _)).bind fun _ _ h => ?_
  have hconnect := (keeps_connect id fd address).maintains (Extends [fd] [] process)
  refine (lossy (hconnect.ends h)).bind fun _ _ h => ?_
  exact ends_pure h

theorem ends_bind (h : Tidy process) (address : SocketAddr) :
    Ends (fun listener => Extends [listener.listener] [] process) (Loses process)
      (TcpListener.bind address) process := by
  refine (lossy (ends_file (.refl h))).bind fun fd _ h => ?_
  refine (lossy (ends_call h _)).bind fun _ _ h => ?_
  refine (lossy (ends_call h _)).bind fun _ _ h => ?_
  refine (lossy (ends_call h _)).bind fun _ _ h => ?_
  refine (lossy (ends_call h _)).bind fun _ _ h => ?_
  refine (lossy (ends_call h _)).bind fun _ _ h => ?_
  exact ends_pure h

theorem ends_newPipe (h : Tidy process) :
    Ends (fun ends => Extends [ends.1.inner, ends.2.inner] [] process) (Loses process) newPipe
      process := by
  refine (lossy (ends_pipe (.refl h))).bind fun ends _ h => ?_
  refine (lossy (ends_call h _)).bind fun _ _ h => ?_
  refine (lossy (ends_call h _)).bind fun _ _ h => ?_
  exact ends_pure h

/-- The receiver is watched when it is registered, and both ends are dropped when it cannot be. -/
theorem ends_newPipeAwakener (h : Tidy process) (selector : Selector) (id : Id) :
    Ends (fun awakener => Extends [awakener.sender, awakener.receiver] [awakener.receiver] process)
      (Loses process) (Pipe.Awakener.new selector id) process := by
  refine (ends_newPipe h).bind fun ends _ h => ?_
  have hwatch := h.watch (List.mem_pair.mpr (Or.inr rfl) : ends.2.inner ∈ _)
  have hregister := ends_registerReadable hwatch List.mem_cons_self selector id RegisterOption.edge
  have hclosed : Ends
      (fun _ => Extends [ends.1.inner, ends.2.inner] [ends.2.inner] process) (Extends [] [] process)
      ((of (selector.register ends.2.inner id Interests.readable RegisterOption.edge)).cleaningUp
        fun process => close ends.1.inner (close ends.2.inner process)) _ :=
    Ends.cleaningUp (hregister.imp (fun _ _ h => h) fun _ h =>
      ((h.perm (List.Perm.swap _ _ _)).close (List.Subset.refl _)).close (List.nil_subset _))
  refine (lossy hclosed).bind fun _ _ h => ?_
  exact ends_pure h

/-! The others clean up after themselves. -/

theorem ends_tryClone (h : Tidy process) (listener : TcpListener) :
    Ends (fun clone => Extends [clone.listener] [] process) (Extends [] [] process)
      listener.tryClone process := by
  refine (ends_dup (.refl h) _).bind fun fd _ h => ?_
  exact ends_pure h

theorem ends_accept (h : Tidy process) (listener : TcpListener) (peer : SocketAddr) :
    Ends (fun accepted => Extends [accepted.1.stream] [] process) (Extends [] [] process)
      (listener.accept peer) process := by
  refine (ends_file (.refl h)).bind fun fd _ h => ?_
  refine (guardedCall h _).bind fun _ _ h => ?_
  exact ends_pure h

theorem ends_bindUdp (h : Tidy process) (address : SocketAddr) :
    Ends (fun socket => Extends [socket.socket] [] process) (Extends [] [] process)
      (UdpSocket.bind address) process := by
  refine (ends_file (.refl h)).bind fun fd _ h => ?_
  refine (guardedCall h _).bind fun _ _ h => ?_
  refine (guardedCall h _).bind fun _ _ h => ?_
  exact ends_pure h

theorem ends_newSelector (h : Tidy process) :
    Ends (fun selector => Extends [selector.kq] [] process) (Extends [] [] process) Selector.new
      process := by
  have hopen : Ends (fun fd => Extends [fd] [] process) (Extends [] [] process)
      (openFile (some process.answers.newQueue)) process := by
    apply ends_openFile (.refl h)
    rintro _ ⟨⟩ key
    exact h.newQueue key
  have hkqueue : Ends (fun fd => Extends [fd] [] process) (Extends [] [] process) kqueue process :=
    ⟨hopen.ensures, hopen.failsIn⟩
  refine hkqueue.bind fun fd _ h => ?_
  exact ends_pure h

theorem ends_newQueue (h : Tidy process) :
    Ends (fun osQueue => Extends [osQueue.selector.kq] [] process) (Extends [] [] process)
      OsQueue.new process := by
  refine (ends_newSelector h).bind fun selector _ h => ?_
  exact ends_pure h

theorem ends_cloneSelector (h : Tidy process) (selector : Selector) :
    Ends (fun clone => Extends [clone.kq] [] process) (Extends [] [] process) selector.tryClone
      process := by
  refine (ends_dup (.refl h) _).bind fun fd _ h => ?_
  exact ends_pure h

theorem ends_newAwakener (h : Tidy process) (selector : Selector) (id : Id) :
    Ends (fun awakener => Extends [awakener.selector.kq] [] process) (Extends [] [] process)
      (Kqueue.Awakener.new selector id) process := by
  refine (ends_cloneSelector h selector).bind fun clone _ h => ?_
  refine (guarded (List.nil_subset _) (ends_setupAwakener h clone id)).bind fun _ _ h => ?_
  exact ends_pure h

theorem ends_cloneAwakener (h : Tidy process) (awakener : Kqueue.Awakener) :
    Ends (fun clone => Extends [clone.selector.kq] [] process) (Extends [] [] process)
      awakener.tryClone process := by
  refine (ends_cloneSelector h awakener.selector).bind fun clone _ h => ?_
  exact ends_pure h

theorem ends_clonePipeAwakener (h : Tidy process) (awakener : Pipe.Awakener) :
    Ends (fun clone => Extends [clone.sender, clone.receiver] [clone.receiver] process)
      (Extends [] [] process) awakener.tryClone process := by
  refine (ends_dup (.refl h) _).bind fun sender _ h => ?_
  have hreceiver : Ends (fun receiver => Extends [receiver, sender] [] process)
      (Extends [] [] process) ((dup awakener.receiver).cleaningUp (close sender)) _ :=
    guarded (List.nil_subset _) (ends_dup h _)
  refine hreceiver.bind fun receiver _ h => ?_
  exact ends_pure ((h.perm (List.Perm.swap _ _ _)).watch (List.mem_pair.mpr (Or.inr rfl)))

theorem ends_newSignals (h : Tidy process) (selector : Selector) (signals : SignalSet) (id : Id) :
    Ends (fun signals => Extends [signals.kq.kq] [signals.kq.kq] process) (Extends [] [] process)
      (Kqueue.Signals.new selector signals id) process := by
  have hset : Maintains (· = process) (createSigset signals) :=
    keeps_createSigset (fun process => process) signals _
  have hends : Ends (fun _ after => after = process) (Extends [] [] process) (createSigset signals)
      process := (hset.ends rfl).imp (fun _ _ h => h) (by rintro _ rfl; exact .refl h)
  refine hends.bind fun set between hsame => ?_
  subst hsame
  refine (ends_newSelector h).bind fun kq _ h => ?_
  have hwatch := h.watch (List.mem_singleton_self kq.kq)
  refine Ends.bind (guarded (List.Subset.refl [kq.kq]) ?_) fun _ _ h => ends_pure h
  refine (ends_registerSignals hwatch kq id signals).bind fun _ _ h => ?_
  refine (ends_registerReadable h List.mem_cons_self selector id _).bind fun _ _ h => ?_
  exact ends_blockSignals h set

end Constructors

/-- The constructors that own their descriptors as soon as these are open. -/
def Constructor.isGuarded : Constructor → Bool
  | .connect _ | .bind _ | .newPipe | .newPipeAwakener _ _ => false
  | .raw | .tryClone _ | .accept _ _ | .bindUdp _ | .newQueue | .newAwakener _ _ | .cloneAwakener _
  | .clonePipeAwakener _ | .newSignals _ _ _ => true

/-- The descriptors of a new handle that may be watched already. -/
def Handle.watched : Handle → List RawFd
  | .pipeAwakener inner => [inner.receiver]
  | .signals inner => [inner.kq.kq]
  | .raw _ | .stream _ | .listener _ | .socket _ | .sender _ | .receiver _ | .queue _
  | .awakener _ => []

def fdsOf (handles : List Handle) : List RawFd := handles.flatMap Owner.fds

def watchedOf (handles : List Handle) : List RawFd := handles.flatMap Handle.watched

/-- A process in which new handles have been built. -/
abbrev Builds (handles : List Handle) (process after : Process KernelQueue) : Prop :=
  Extends (fdsOf handles) (watchedOf handles) process after

theorem ends_handle {α : Type} {x : SysM KernelQueue α} {f : α → Handle}
    {process : Process KernelQueue} {I : Process KernelQueue → Prop}
    (h : Ends (fun a => Extends (Owner.fds (f a)) (f a).watched process) I x process) :
    Ends (fun handles => Builds handles process) I (do return [f (← x)]) process := by
  refine h.bind fun a _ h => ends_pure ?_
  rw [Builds, fdsOf, watchedOf, List.flatMap_singleton, List.flatMap_singleton]
  exact h

/-- **Constructors.** What a constructor opens belongs to the handles that it returns. If it fails,
it may have lost some descriptors, but not if it is guarded. -/
theorem ends_run {process : Process KernelQueue} (h : Tidy process) (constructor : Constructor) :
    Ends (fun handles => Builds handles process)
      (fun after => ∃ lost, Extends lost [] process after
        ∧ (constructor.isGuarded = true → lost = [])) constructor.run process := by
  have hlossy {x : SysM KernelQueue (List Handle)} (hguarded : constructor.isGuarded = false)
      (hx : Ends (fun handles => Builds handles process) (Loses process) x process) :
      Ends (fun handles => Builds handles process)
        (fun after => ∃ lost, Extends lost [] process after
          ∧ (constructor.isGuarded = true → lost = [])) x process := by
    refine hx.imp (fun _ _ h => h) fun after ⟨lost, hlost⟩ => ⟨lost, hlost, fun htrue => ?_⟩
    rw [hguarded] at htrue
    cases htrue
  have hguarded {x : SysM KernelQueue (List Handle)}
      (hx : Ends (fun handles => Builds handles process) (Extends [] [] process) x process) :
      Ends (fun handles => Builds handles process)
        (fun after => ∃ lost, Extends lost [] process after
          ∧ (constructor.isGuarded = true → lost = [])) x process :=
    hx.imp (fun _ _ h => h) fun after hnone => ⟨[], hnone, fun _ => rfl⟩
  cases constructor with
  | raw => exact hguarded (ends_handle (ends_file (.refl h)))
  | connect address => exact hlossy rfl (ends_handle (ends_connect h address))
  | bind address => exact hlossy rfl (ends_handle (ends_bind h address))
  | tryClone listener => exact hguarded (ends_handle (ends_tryClone h listener))
  | accept listener peer =>
      exact hguarded (ends_handle (f := fun accepted : TcpStream × SocketAddr => .stream accepted.1)
        (ends_accept h listener peer))
  | bindUdp address => exact hguarded (ends_handle (ends_bindUdp h address))
  | newPipe => exact hlossy rfl ((ends_newPipe h).bind fun _ _ h => ends_pure h)
  | newQueue => exact hguarded (ends_handle (ends_newQueue h))
  | newAwakener osQueue id => exact hguarded (ends_handle (ends_newAwakener h osQueue.selector id))
  | cloneAwakener awakener => exact hguarded (ends_handle (ends_cloneAwakener h awakener))
  | newPipeAwakener osQueue id =>
      exact hlossy rfl (ends_handle (ends_newPipeAwakener h osQueue.selector id))
  | clonePipeAwakener awakener => exact hguarded (ends_handle (ends_clonePipeAwakener h awakener))
  | newSignals osQueue signals id =>
      exact hguarded (ends_handle (ends_newSignals h osQueue.selector signals id))

end Gaea.Sys
