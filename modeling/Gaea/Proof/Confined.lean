import Gaea.Proof.Descriptors
import Gaea.Proof.KqueueSpec
import Gaea.Sys.Constructors
import Mathlib.Data.Option.Basic

/-!
# What closing takes back

A constructor on kqueue owns the descriptors that it opens, and what it changes belongs to them:
the descriptors themselves, their files, and their filters in other kqueues. Closing them takes all
of it back.
-/

namespace Gaea.Sys

open Fallible Kqueue

variable {α : Type} {fds : List RawFd}

/-- A descriptor that is not open has no filters. -/
def Clean (process : Process KernelQueue) : Prop :=
  ∀ fd, process.files fd = none → ∀ file kqueue, process.queues file = some kqueue →
    ∀ key ∈ descriptorKeys fd, kqueue.knotes key = none

/-- Two kqueues that differ at most in the filters of some descriptors. -/
structure AgreeOff (fds : List RawFd) (kqueue after : KernelQueue) : Prop where
  knotes : ∀ key, (∀ fd ∈ fds, key ∉ descriptorKeys fd) → after.knotes key = kqueue.knotes key
  rest : after = { kqueue with knotes := after.knotes }

theorem AgreeOff.refl (fds : List RawFd) (kqueue : KernelQueue) : AgreeOff fds kqueue kqueue :=
  ⟨fun _ _ => rfl, rfl⟩

theorem AgreeOff.trans {first second third : KernelQueue} (h : AgreeOff fds first second)
    (h' : AgreeOff fds second third) : AgreeOff fds first third := by
  constructor
  · intro key hkey
    rw [h'.knotes key hkey, h.knotes key hkey]
  · rw [h'.rest, h.rest]

theorem AgreeOff.eq {kqueue after : KernelQueue} (h : AgreeOff [] kqueue after) :
    after = kqueue := by
  rw [h.rest, funext fun key => h.knotes key nofun]

theorem agreeOff_setKnote {fd : RawFd} {key : Key} (hfd : fd ∈ fds) (hkey : key ∈ descriptorKeys fd)
    (kqueue : KernelQueue) (knote : Option Knote) :
    AgreeOff fds kqueue (kqueue.setKnote key knote) := by
  refine ⟨fun key' hkey' => ?_, rfl⟩
  apply KernelQueue.knotes_setKnote_of_ne
  rintro rfl
  exact hkey' fd hfd hkey

theorem AgreeOff.forget {fd : RawFd} {kqueue after : KernelQueue}
    (h : AgreeOff (fd :: fds) kqueue after)
    (hclean : ∀ key ∈ descriptorKeys fd, kqueue.knotes key = none) :
    AgreeOff fds kqueue (after.forget fd) := by
  refine ⟨fun key hkey => ?_, ?_⟩
  · by_cases hmem : key ∈ descriptorKeys fd
    · rw [hclean key hmem]
      exact if_pos hmem
    · rw [← h.knotes key (List.forall_mem_cons.mpr ⟨hmem, hkey⟩)]
      exact if_neg hmem
  · rw [KernelQueue.forget, h.rest]

/-- A process that differs from an earlier one at most in what belongs to some descriptors. -/
structure Confined (fds : List RawFd) (process after : Process KernelQueue) : Prop where
  files : ∀ fd, fd ∉ fds → after.files fd = process.files fd
  nextFile : process.nextFile ≤ after.nextFile
  mask : after.mask = process.mask
  queues : ∀ file < process.nextFile,
    Option.Rel (AgreeOff fds) (process.queues file) (after.queues file)

theorem optionRel_refl (fds : List RawFd) :
    ∀ kqueue : Option KernelQueue, Option.Rel (AgreeOff fds) kqueue kqueue
  | none => .none
  | some kqueue => .some (AgreeOff.refl fds kqueue)

theorem optionRel_imp {R S : KernelQueue → KernelQueue → Prop}
    (himp : ∀ kqueue after, R kqueue after → S kqueue after) {kqueue after : Option KernelQueue}
    (h : Option.Rel R kqueue after) : Option.Rel S kqueue after := by
  cases h with
  | none => exact .none
  | some hagree => exact .some (himp _ _ hagree)

theorem Confined.refl (process : Process KernelQueue) : Confined [] process process :=
  ⟨fun _ _ => rfl, le_rfl, rfl, fun _ _ => optionRel_refl [] _⟩

section Confined

variable {process after : Process KernelQueue}

theorem AgreeOff.mono {fds' : List RawFd} {kqueue kqueue' : KernelQueue}
    (h : AgreeOff fds kqueue kqueue') (hsub : fds ⊆ fds') : AgreeOff fds' kqueue kqueue' :=
  ⟨fun key hkey => h.knotes key fun fd hmem => hkey fd (hsub hmem), h.rest⟩

theorem Confined.mono {fds' : List RawFd} (h : Confined fds process after) (hsub : fds ⊆ fds') :
    Confined fds' process after where
  files fd hmem := h.files fd fun hmem' => hmem (hsub hmem')
  nextFile := h.nextFile
  mask := h.mask
  queues file hlt := optionRel_imp (fun _ _ hagree => hagree.mono hsub) (h.queues file hlt)

theorem Confined.openFile (h : Confined fds process after) (fd : RawFd)
    (queue : Option KernelQueue) : Confined (fd :: fds) process (after.openFile fd queue) := by
  constructor
  · intro fd' hmem
    obtain ⟨hne, hmem⟩ := not_or.mp fun h => hmem (List.mem_cons.mpr h)
    rw [← h.files fd' hmem]
    exact Function.update_of_ne hne _ _
  · exact h.nextFile.trans (Nat.le_succ _)
  · exact h.mask
  · intro file hlt
    have hne : file ≠ after.nextFile := (hlt.trans_le h.nextFile).ne
    have hsame : (after.openFile fd queue).queues file = after.queues file :=
      Function.update_of_ne hne _ _
    rw [hsame]
    exact optionRel_imp (fun _ _ hagree => hagree.mono (List.subset_cons_self fd fds))
      (h.queues file hlt)

/-- A descriptor that is closed again no longer counts. -/
theorem Confined.close {fd : RawFd} (h : Confined (fd :: fds) process after)
    (hclean : Clean process) (hclosed : process.files fd = none) :
    Confined fds process (close fd after) := by
  constructor
  · intro fd' hmem
    by_cases heq : fd' = fd
    · rw [heq, hclosed]
      exact Function.update_self _ _ _
    · rw [← h.files fd' (List.not_mem_cons_of_ne_of_not_mem heq hmem)]
      exact Function.update_of_ne heq _ _
  · exact h.nextFile
  · exact h.mask
  · intro file hlt
    have hrel := h.queues file hlt
    have hmap :
        (Sys.close fd after).queues file = (after.queues file).map (KernelQueue.forget fd) :=
      rfl
    rw [hmap]
    generalize hbefore : process.queues file = before at hrel
    generalize after.queues file = later at hrel
    cases hrel with
    | none => exact .none
    | some hagree => exact .some (hagree.forget (hclean fd hclosed file _ hbefore))

theorem Confined.view_eq (h : Confined [] process after) (selectorFd : RawFd) :
    after.files = process.files ∧ after.queue selectorFd = process.queue selectorFd
      ∧ after.mask = process.mask := by
  have hfiles : after.files = process.files := funext fun fd => h.files fd nofun
  refine ⟨hfiles, ?_, h.mask⟩
  rw [Process.queue, Process.queue, hfiles]
  cases hfile : process.files selectorFd with
  | none => rfl
  | some file =>
      have hrel := h.queues file (process.files_lt selectorFd file hfile)
      rw [Option.bind_some, Option.bind_some]
      generalize process.queues file = before at hrel
      generalize after.queues file = later at hrel
      cases hrel with
      | none => rfl
      | some hagree => rw [hagree.eq]

/-- A change of a kqueue that is new, or in what belongs to the descriptors. -/
theorem Confined.setQueue (h : Confined fds process after) {kq : RawFd}
    {kqueue kqueue' : KernelQueue}
    (hqueue : after.queue kq = some kqueue)
    (hagree : (∃ file, after.files kq = some file ∧ process.nextFile ≤ file)
      ∨ AgreeOff fds kqueue kqueue') : Confined fds process (after.setQueue kq kqueue') := by
  obtain ⟨file, hfile, hkqueue⟩ := Option.bind_eq_some_iff.mp hqueue
  rw [Process.setQueue_of_some hfile]
  refine ⟨h.files, h.nextFile, h.mask, fun file' hlt => ?_⟩
  dsimp only
  by_cases heq : file' = file
  · have hrel := h.queues file' hlt
    rw [heq, hkqueue] at hrel
    rw [heq, Function.update_self]
    rcases hagree with ⟨new, hnew, hle⟩ | hagree
    · rw [hfile] at hnew
      rw [heq, Option.some.inj hnew] at hlt
      exact absurd hle hlt.not_ge
    · generalize process.queues file = before at hrel
      cases hrel with
      | some hbefore => exact .some (hbefore.trans hagree)
  · rw [Function.update_of_ne heq]
    exact h.queues file' hlt

end Confined

/-! ## Calls of `kevent` -/

section Kevent

variable {process after : Process KernelQueue} {kq : RawFd}

/-- A call that reaches the kqueue does to it what it does to a kqueue alone. -/
theorem keventRegister_of_none {kqueue : KernelQueue} (hqueue : process.queue kq = some kqueue)
    (herrno : process.answers.errno (.kevent kq) = none) (changes : List Kevent)
    (ignoredErrors : List Int64) :
    keventRegister kq changes ignoredErrors process
      = ((keventRegister kq changes ignoredErrors kqueue).1,
        process.setQueue kq (keventRegister kq changes ignoredErrors kqueue).2) := by
  have hkevent : Kernel.kevent kq changes changes.length none process
      = ((Kernel.kevent kq changes changes.length none kqueue).1,
        process.setQueue kq (Kernel.kevent kq changes changes.length none kqueue).2) := by
    simp only [Kernel.kevent, hqueue, herrno]
  unfold keventRegister
  simp only [hkevent]
  split <;> rfl

/-- A call that fails as a whole has changed nothing, unless it was interrupted. -/
theorem keventRegister_of_some {kqueue : KernelQueue} (hqueue : process.queue kq = some kqueue)
    {errno : Int32} (herrno : process.answers.errno (.kevent kq) = some errno)
    (changes : List Kevent) (ignoredErrors : List Int64) :
    keventRegister kq changes ignoredErrors process
      = if errno = eintr then
          (.ok (), process.setQueue kq (keventRegister kq changes ignoredErrors kqueue).2)
        else (.error ⟨errno⟩, process) := by
  have hnothing : Kernel.kevent kq [] 0 none kqueue
      = ((Kernel.kevent kq [] 0 none kqueue).1, kqueue) := by
    refine Prod.ext rfl ?_
    change (kqueue.kevent [] 0).2 = kqueue
    have hdeliver := congrArg Prod.snd (KernelQueue.deliver.eq_1 kqueue kqueue.active)
    unfold KernelQueue.kevent
    split
    · rfl
    · exact hdeliver
  have hkevent : Kernel.kevent kq changes changes.length none process
      = (⟨-1, [], errno⟩, if errno = eintr then
          process.setQueue kq (Kernel.kevent kq changes changes.length none kqueue).2
        else process) := by
    cases changes with
    | nil =>
        rw [List.length_nil, hnothing, Process.setQueue_self hqueue, ite_self]
        simp only [Kernel.kevent, hqueue, herrno, List.isEmpty_nil, Bool.not_true, Bool.and_false,
          Bool.false_eq_true, if_false]
    | cons change changes =>
        simp only [Kernel.kevent, hqueue, herrno, List.isEmpty_cons, Bool.not_false, Bool.and_true,
          decide_eq_true_eq]
  have hsnd : (keventRegister kq changes ignoredErrors kqueue).2
      = (Kernel.kevent kq changes changes.length none kqueue).2 := by
    unfold keventRegister
    dsimp only
    split <;> rfl
  unfold keventRegister at hsnd ⊢
  simp only [hkevent, if_true, hsnd]
  split <;> rfl

theorem keventRegister_of_closed (hqueue : process.queue kq = none) (changes : List Kevent)
    (ignoredErrors : List Int64) :
    keventRegister kq changes ignoredErrors process = (.error ⟨ebadf⟩, process) := by
  simp only [keventRegister, Kernel.kevent, hqueue]
  rfl

theorem keventRegister_snd (kq : RawFd) (changes : List Kevent) (ignoredErrors : List Int64)
    (process : Process KernelQueue) :
    (keventRegister kq changes ignoredErrors process).2 = process
      ∨ ∃ kqueue, process.queue kq = some kqueue
        ∧ (keventRegister kq changes ignoredErrors process).2
          = process.setQueue kq (keventRegister kq changes ignoredErrors kqueue).2 := by
  cases hqueue : process.queue kq with
  | none =>
      rw [keventRegister_of_closed hqueue]
      exact Or.inl rfl
  | some kqueue =>
      cases herrno : process.answers.errno (.kevent kq) with
      | none =>
          rw [keventRegister_of_none hqueue herrno]
          exact Or.inr ⟨kqueue, rfl, rfl⟩
      | some errno =>
          rw [keventRegister_of_some hqueue herrno]
          split
          · exact Or.inr ⟨kqueue, rfl, rfl⟩
          · exact Or.inl rfl

/-- A change with an error in its receipt has not been made. -/
theorem setKnote_of_errorOf_ne {kqueue : KernelQueue} {change : Kevent}
    (herror : kqueue.errorOf change ≠ 0) :
    kqueue.setKnote change.key (kqueue.entryAfter change) = kqueue := by
  have hentry : kqueue.entryAfter change = kqueue.knotes change.key := by
    unfold KernelQueue.errorOf at herror
    unfold KernelQueue.entryAfter
    cases hrefuse : kqueue.refuse change with
    | some errno => rfl
    | none =>
        rw [hrefuse] at herror
        have hmissing : (containsFlag change.flags evAdd || (kqueue.knotes change.key).isSome)
            = false := eq_false_of_ne_true fun h => herror (if_pos h)
        obtain ⟨hadd, hknote⟩ := Bool.or_eq_false_iff.mp hmissing
        rw [Option.isSome_eq_false_iff, Option.isNone_iff_eq_none] at hknote
        simp [Kevent.entry, hadd, hknote]
  rw [KernelQueue.setKnote, hentry, Function.update_eq_self]

theorem keventRegister_single {kqueue : KernelQueue} (hcall : kqueue.callError = none)
    {change : Kevent} (hchange : change.IsChange) (kq : RawFd) (ignoredErrors : List Int64) :
    keventRegister kq [change] ignoredErrors kqueue
      = (checkErrors ignoredErrors [KernelQueue.receipt change (kqueue.errorOf change)],
        kqueue.setKnote change.key (kqueue.entryAfter change)) := by
  rw [keventRegister_eq hcall (by simpa using hchange) (List.pairwise_singleton _ _)
    (List.cons_ne_nil _ _) (by rw [List.length_singleton]; decide)]
  simp only [KernelQueue.makeChanges, KernelQueue.change_eq hchange, List.map_cons, List.map_nil]

theorem setKnote_of_keventRegister (kqueue : KernelQueue) {change : Kevent}
    (hchange : change.IsChange) (kq : RawFd) (ignoredErrors : List Int64) :
    ∃ knote, (keventRegister kq [change] ignoredErrors kqueue).2
      = kqueue.setKnote change.key knote := by
  cases hcall : kqueue.callError with
  | some errno =>
      rw [keventRegister_of_callError hcall]
      refine ⟨kqueue.knotes change.key, ?_⟩
      rw [KernelQueue.setKnote, Function.update_eq_self]
  | none =>
      rw [keventRegister_single hcall hchange]
      exact ⟨_, rfl⟩

theorem snd_of_error {kqueue : KernelQueue} {change : Kevent} (hchange : change.IsChange)
    {err : IoError} (herr : (keventRegister kq [change] [] kqueue).1 = .error err) :
    (keventRegister kq [change] [] kqueue).2 = kqueue := by
  cases hcall : kqueue.callError with
  | some errno => rw [keventRegister_of_callError hcall]
  | none =>
      rw [keventRegister_single hcall hchange] at herr ⊢
      apply setKnote_of_errorOf_ne
      intro hzero
      have hok := (checkErrors_eq_ok_iff [] [change] kqueue.errorOf).mpr (by simp [hzero])
      cases hok.symm.trans herr

/-- A single change that fails has not changed anything. -/
theorem keventRegister_error {change : Kevent} (hchange : change.IsChange) {err : IoError}
    (hrun : keventRegister kq [change] [] process = (.error err, after)) : after = process := by
  cases hqueue : process.queue kq with
  | none =>
      rw [keventRegister_of_closed hqueue] at hrun
      exact (congrArg Prod.snd hrun).symm
  | some kqueue =>
      cases herrno : process.answers.errno (.kevent kq) with
      | none =>
          rw [keventRegister_of_none hqueue herrno] at hrun
          obtain ⟨herr, hafter⟩ := Prod.mk.inj hrun
          rw [← hafter, snd_of_error hchange herr, Process.setQueue_self hqueue]
      | some errno =>
          rw [keventRegister_of_some hqueue herrno] at hrun
          split at hrun
          · cases hrun
          · exact (congrArg Prod.snd hrun).symm

end Kevent

/-! ## Opening and closing -/

section Open

variable {process after : Process KernelQueue}

theorem closed_of_notMem {fd : RawFd} (h : fd ∉ process.opened) : process.files fd = none :=
  Option.not_isSome_iff_eq_none.mp h

theorem closed_of_openFile {fd : RawFd} {queue : Option KernelQueue}
    (h : openFile queue process = (.ok fd, after)) : process.files fd = none :=
  closed_of_notMem
    ((opens_openFile queue).closed process fd after h fd (List.mem_singleton_self fd))

theorem files_of_openFile {fd : RawFd} {queue : Option KernelQueue}
    (h : openFile queue process = (.ok fd, after)) : after.files fd = some process.nextFile := by
  cases halloc : process.answers.alloc process.files with
  | error err =>
      rw [openFile_of_error halloc] at h
      cases h
  | ok fresh =>
      rw [openFile_of_ok halloc] at h
      obtain ⟨hfd, rfl⟩ := Prod.mk.inj h
      obtain rfl := Except.ok.inj hfd
      exact Function.update_self _ _ _

theorem Confined.of_openFile {earlier : Process KernelQueue} (h : Confined fds earlier process)
    {fd : RawFd} {queue : Option KernelQueue}
    (hopen : Sys.openFile queue process = (.ok fd, after)) :
    Confined (fd :: fds) earlier after := by
  cases halloc : process.answers.alloc process.files with
  | error err =>
      rw [openFile_of_error halloc] at hopen
      cases hopen
  | ok fresh =>
      rw [openFile_of_ok halloc] at hopen
      obtain ⟨hfd, rfl⟩ := Prod.mk.inj hopen
      exact Except.ok.inj hfd ▸ h.openFile fresh queue

/-- A second descriptor for a file, which was not open before. -/
theorem Confined.of_dup {fd fd' : RawFd} (h : dup fd process = (.ok fd', after)) :
    process.files fd' = none ∧ Confined [fd'] process after := by
  unfold dup at h
  split at h
  · cases h
  · cases h
  · rename_i file fresh hfile _
    obtain ⟨hfd, rfl⟩ := Prod.mk.inj h
    obtain rfl := Except.ok.inj hfd
    refine ⟨fresh.property, fun fd' hmem => ?_, le_rfl, rfl, fun _ _ => optionRel_refl _ _⟩
    exact Function.update_of_ne (fun heq => hmem (List.mem_singleton.mpr heq)) _ _

theorem dup_error {fd : RawFd} {err : IoError} (h : dup fd process = (.error err, after)) :
    after = process := by
  unfold dup at h
  split at h
  · exact (congrArg Prod.snd h).symm
  · exact (congrArg Prod.snd h).symm
  · cases h

end Open

end Gaea.Sys
