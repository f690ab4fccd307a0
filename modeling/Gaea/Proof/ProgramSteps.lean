import Gaea.Proof.Effects

/-!
# What a step of a program does

There are five kinds of steps. Handles are built, or it fails and descriptors are lost; a handle is
turned into another one, or dropped; everything else leaves the handles and the descriptors as they
are. A step has to do with at most one handle that is alive.
-/

namespace Gaea.Sys

open Fallible Kqueue

/-- The events of a handle. -/
def Occurrence.Touches (handle : Handle) : Occurrence → Prop
  | .performed other _ _ | .dropped other | .turned other _ => other = handle
  | .built _ _ | .failed _ _ | .polled _ | .woken _ | .received _ | .system => False

/-- The events in which the system takes filters away, which it may do when it delivers. -/
def Occurrence.IsDelivery : Occurrence → Prop
  | .polled _ | .received _ | .system => True
  | .built _ _ | .failed _ _ | .performed _ _ _ | .dropped _ | .turned _ _ | .woken _ => False

def Occurrence.IsQuiet : Occurrence → Prop
  | .performed _ _ _ | .polled _ | .woken _ | .received _ | .system => True
  | .built _ _ | .failed _ _ | .dropped _ | .turned _ _ => False

theorem fds_of_intoRawFd {handle : Handle} {fd : RawFd} (h : handle.intoRawFd = some fd) :
    Owner.fds handle = [fd] := by
  cases handle <;> cases h <;> rfl

theorem fds_of_fromRawFd {handle : Handle} {fd : RawFd} (h : handle ∈ Handle.fromRawFd fd) :
    Owner.fds handle = [fd] := by
  simp only [Handle.fromRawFd, List.mem_cons, List.not_mem_nil, or_false] at h
  rcases h with rfl | rfl | rfl <;> rfl

/-- The handles that one can be turned into, or that can be turned into one. -/
structure Turned (handle handle' : Handle) : Prop where
  fds_eq : Owner.fds handle' = Owner.fds handle
  raw : (∃ fd, handle' = .raw fd) ∨ ∃ fd, handle = .raw fd ∧ handle' ∈ Handle.fromRawFd fd

inductive Moves : Program → Occurrence → Program → Prop where
  | opens {process after live stray} {constructor : Constructor} {handles : List Handle}
      (hbuilds : Builds handles process after)
      (hgrows : Grows constructor.Asks process after) :
      Moves ⟨process, live, stray⟩ (.built constructor handles) ⟨after, live + handles, stray⟩
  | loses {process after live stray} {constructor : Constructor} {lost : List RawFd}
      (hextends : Extends lost [] process after)
      (hguarded : constructor.isGuarded = true → lost = [])
      (hgrows : Grows constructor.Asks process after) :
      Moves ⟨process, live, stray⟩ (.failed constructor {fd | fd ∈ lost})
        ⟨after, live, stray ∪ {fd | fd ∈ lost}⟩
  | quiet {process after live stray} {event : Occurrence} (hevent : event.IsQuiet)
      (hquiet : Quiet event process after)
      (hlive : ∀ handle, event.Touches handle → handle ∈ live) :
      Moves ⟨process, live, stray⟩ event ⟨after, live, stray⟩
  | turns {process live stray} {handle handle' : Handle} (hturned : Turned handle handle') :
      Moves ⟨process, handle ::ₘ live, stray⟩ (.turned handle handle')
        ⟨process, handle' ::ₘ live, stray⟩
  | drops {process live stray} (handle : Handle) :
      Moves ⟨process, handle ::ₘ live, stray⟩ (.dropped handle)
        ⟨handle.drop process, live, stray⟩

theorem opened_of_extends {process after : Process KernelQueue} {fds watched : List RawFd}
    (h : Extends fds watched process after) : after.opened = process.opened ∪ {fd | fd ∈ fds} := by
  ext fd
  by_cases hfd : fd ∈ fds
  · have hopen : (after.files fd).isSome = true := Option.isSome_iff_ne_none.mpr (h.opened fd hfd)
    exact iff_of_true hopen (Or.inr hfd)
  · have hsame : fd ∈ after.opened ↔ fd ∈ process.opened := by
      change (after.files fd).isSome = true ↔ (process.files fd).isSome = true
      rw [h.files_eq fd hfd]
    rw [hsame, Set.mem_union]
    exact (or_iff_left hfd).symm

theorem notMem_opened_of_extends {process after : Process KernelQueue} {fds watched : List RawFd}
    (h : Extends fds watched process after) : ∀ fd ∈ fds, fd ∉ process.opened := by
  intro fd hfd hopen
  have hsome : (process.files fd).isSome = true := hopen
  rw [h.closed fd hfd] at hsome
  cases hsome

theorem sdiff_opened_of_extends {process after : Process KernelQueue} {fds watched : List RawFd}
    (h : Extends fds watched process after) :
    after.opened \ process.opened = {fd | fd ∈ fds} := by
  rw [opened_of_extends h, Set.union_sdiff_left, sdiff_eq_left]
  exact Set.disjoint_left.mpr fun fd hfd => notMem_opened_of_extends h fd hfd

theorem Step.moves {before after : Program} {event : Occurrence} (htidy : Tidy before.process)
    (step : Step before event after) : Moves before event after := by
  cases step with
  | @build process after live stray constructor handles hborrowed hrun =>
      have hgrows := maintains_run htidy.newQueue constructor process (.refl _ _)
      rw [hrun] at hgrows
      exact .opens ((ends_run htidy constructor).ensures handles after hrun) hgrows
  | @fail process after live stray constructor err hborrowed hrun =>
      obtain ⟨lost, hextends, hguarded⟩ := (ends_run htidy constructor).failsIn err after hrun
      have hgrows := maintains_run htidy.newQueue constructor process (.refl _ _)
      rw [hrun] at hgrows
      rw [sdiff_opened_of_extends hextends]
      exact .loses hextends hguarded hgrows
  | perform hlive hqueue hrun =>
      refine .quiet trivial (quiet_perform htidy hrun) ?_
      rintro _ rfl
      exact hlive
  | drop handle => exact .drops handle
  | intoRawFd hfd => exact .turns ⟨(fds_of_intoRawFd hfd).symm, Or.inl ⟨_, rfl⟩⟩
  | fromRawFd hhandle => exact .turns ⟨fds_of_fromRawFd hhandle, Or.inr ⟨_, rfl, hhandle⟩⟩
  | @poll process live stray osQueue ES _ sink timeout hqueue =>
      have hmove := systemMove_poll htidy osQueue sink timeout
      exact .quiet trivial (quiet_system hmove fun _ => trivial) fun _ htouches => htouches.elim
  | @wake process after live stray awakener answer hlive hrun =>
      have hquiet := quiet_wake htidy awakener
      rw [hrun] at hquiet
      exact .quiet trivial hquiet fun _ htouches => htouches.elim
  | @receive process after live stray signals received hlive hrun =>
      have hmove := systemMove_receive htidy signals
      rw [hrun] at hmove
      exact .quiet trivial (quiet_system hmove fun _ => trivial) fun _ htouches => htouches.elim
  | system hmove =>
      exact .quiet trivial (quiet_system hmove fun _ => trivial) fun _ htouches => htouches.elim

namespace Moves

variable {before after : Program} {event : Occurrence} {fd : RawFd}

theorem live_of_touches {handle : Handle} (moves : Moves before event after)
    (htouches : event.Touches handle) : handle ∈ before.live := by
  cases moves with
  | opens hbuilds hgrows => exact htouches.elim
  | loses hextends hguarded hgrows => exact htouches.elim
  | quiet hevent hquiet hlive => exact hlive handle htouches
  | turns hturned =>
      obtain rfl := htouches
      exact Multiset.mem_cons_self _ _
  | drops handle' =>
      obtain rfl := htouches
      exact Multiset.mem_cons_self _ _

/-- A handle that the step has nothing to do with stays alive. -/
theorem live_of_live {handle : Handle} (moves : Moves before event after)
    (hlive : handle ∈ before.live) (hleft : ¬ event.Touches handle) : handle ∈ after.live := by
  cases moves with
  | opens hbuilds hgrows => exact Multiset.mem_add.mpr (Or.inl hlive)
  | loses hextends hguarded hgrows => exact hlive
  | quiet hevent hquiet _ => exact hlive
  | turns hturned =>
      have hrest := (Multiset.mem_cons.mp hlive).resolve_left fun heq => hleft heq.symm
      exact Multiset.mem_cons_of_mem hrest
  | drops handle' => exact (Multiset.mem_cons.mp hlive).resolve_left fun heq => hleft heq.symm

/-- An open descriptor stays what it is, unless its handle is dropped. -/
theorem files_of_open (moves : Moves before event after) (htidy : Tidy before.process)
    (hopen : before.process.files fd ≠ none)
    (hleft : ∀ handle, event.Touches handle → fd ∉ Owner.fds handle) :
    after.process.files fd = before.process.files fd := by
  cases moves with
  | opens hbuilds hgrows => exact hbuilds.files_eq fd fun hmem => hopen (hbuilds.closed fd hmem)
  | loses hextends hguarded hgrows =>
      exact hextends.files_eq fd fun hmem => hopen (hextends.closed fd hmem)
  | quiet hevent hquiet hlive => exact congrFun hquiet.files_eq fd
  | turns hturned => rfl
  | drops handle =>
      exact (foldr_close (Owner.fds handle) htidy).2.2.2 fd (hleft handle rfl)

theorem nextFile_le (moves : Moves before event after) (htidy : Tidy before.process) :
    before.process.nextFile ≤ after.process.nextFile := by
  cases moves with
  | opens hbuilds hgrows => exact hbuilds.nextFile_le
  | loses hextends hguarded hgrows => exact hextends.nextFile_le
  | quiet hevent hquiet hlive => exact hquiet.nextFile_eq.ge
  | turns hturned => exact le_rfl
  | drops handle => exact (foldr_close (Owner.fds handle) htidy).2.2.1.ge

/-- **Filters.** After a step a filter is what it was before, or it is gone, or the step has asked
for it. -/
theorem entry_cases (moves : Moves before event after) (file : File) (key : Key) :
    after.process.entry file key = before.process.entry file key
      ∨ (before.process.nextFile ≤ file ∨ event.Clears key) ∧ after.process.entry file key = none
      ∨ ∃ knote, after.process.entry file key = some knote ∧ event.Asks key ⟨knote.udata⟩ := by
  cases moves with
  | @opens process after live stray constructor handles hbuilds hgrows =>
      rcases entry_of_extends hbuilds hgrows file key with
        hsame | ⟨hle, hnone⟩ | ⟨knote, hknote, hasks⟩
      · exact Or.inl hsame
      · exact Or.inr (Or.inl ⟨Or.inl hle, hnone⟩)
      · exact Or.inr (Or.inr ⟨knote, hknote, hasks⟩)
  | @loses process after live stray constructor lost hextends hguarded hgrows =>
      rcases entry_of_extends hextends hgrows file key with
        hsame | ⟨hle, hnone⟩ | ⟨knote, hknote, hasks⟩
      · exact Or.inl hsame
      · exact Or.inr (Or.inl ⟨Or.inl hle, hnone⟩)
      · refine Or.inr (Or.inr ⟨knote, hknote, hasks.1, fun fd hkey => ?_⟩)
        exact List.not_mem_nil (hasks.2 fd hkey)
  | quiet hevent hquiet hlive =>
      rcases hquiet.entry_cases file key with hsame | ⟨hclears, hnone⟩ | hasked
      · exact Or.inl hsame
      · exact Or.inr (Or.inl ⟨Or.inr hclears, hnone⟩)
      · exact Or.inr (Or.inr hasked)
  | turns hturned => exact Or.inl rfl
  | @drops process live stray handle =>
      have hentry := entry_foldr_close (Owner.fds handle) process file key
      split_ifs at hentry with hkey
      · exact Or.inr (Or.inl ⟨Or.inr hkey, hentry⟩)
      · exact Or.inl hentry

theorem closed_of_watched {constructor : Constructor} {handles : List Handle}
    (moves : Moves before (.built constructor handles) after) (hfd : fd ∈ watchedOf handles) :
    before.process.files fd = none := by
  cases moves with
  | opens hbuilds hgrows => exact hbuilds.closed fd (hbuilds.watched_subset hfd)
  | quiet hevent hquiet hlive => exact hevent.elim

end Moves

section Filters

variable {before after : Program} {event : Occurrence} {fd : RawFd} {key : Key}

/-- Filters of a descriptor are taken away by an event of its handle, unless it is a delivery. -/
theorem Occurrence.Clears.isDelivery_or (h : event.Clears key) (hkey : key ∈ descriptorKeys fd) :
    event.IsDelivery ∨ ∃ handle, event.Touches handle ∧ fd ∈ Owner.fds handle := by
  cases event with
  | performed handle osQueue action | dropped handle =>
      obtain ⟨fd', hfd', hkey'⟩ := h
      exact Or.inr ⟨handle, rfl, eq_of_mem_descriptorKeys hkey hkey' ▸ hfd'⟩
  | polled osQueue | received signals | system => exact Or.inl trivial
  | built constructor handles | failed constructor lost | turned handle handle' | woken awakener =>
      exact h.elim

/-- Filters of a descriptor are asked for by an event of its handle, or when it is opened. -/
theorem Occurrence.Asks.touches_or {id : Id} (h : event.Asks key id)
    (hkey : key ∈ descriptorKeys fd) :
    (∃ handle, event.Touches handle ∧ fd ∈ Owner.fds handle)
      ∨ ∃ constructor handles, event = .built constructor handles ∧ fd ∈ watchedOf handles := by
  cases event with
  | built constructor handles => exact Or.inr ⟨constructor, handles, rfl, h.2 fd hkey⟩
  | failed constructor lost => exact absurd hkey (h.2 fd)
  | performed handle osQueue action =>
      obtain ⟨fd', excluded, registration, hevented, -, hident, -⟩ := h
      obtain rfl : fd = fd' :=
        identOf_injective ((fst_of_mem_descriptorKeys hkey).symm.trans hident)
      refine Or.inl ⟨handle, rfl, ?_⟩
      rw [fds_of_evented hevented]
      exact List.mem_singleton_self fd
  | woken awakener =>
      obtain ⟨rfl, -⟩ := h
      rcases snd_of_mem_descriptorKeys hkey with heq | heq <;> cases heq
  | dropped handle | turned handle handle' | polled osQueue | received signals | system =>
      exact h.elim

/-- The filters of an open descriptor stay, or they are taken away in a delivery, unless it belongs
to a handle that the event is one of. -/
theorem Moves.entry_of_open (moves : Moves before event after)
    (hopen : before.process.files fd ≠ none)
    (hleft : ∀ handle, event.Touches handle → fd ∉ Owner.fds handle)
    (hkey : key ∈ descriptorKeys fd) (file : File) :
    after.process.entry file key = before.process.entry file key
      ∨ (before.process.nextFile ≤ file ∨ event.IsDelivery)
        ∧ after.process.entry file key = none := by
  rcases moves.entry_cases file key with hsame | ⟨hle | hclears, hnone⟩ | ⟨knote, -, hasks⟩
  · exact Or.inl hsame
  · exact Or.inr ⟨Or.inl hle, hnone⟩
  · rcases hclears.isDelivery_or hkey with hdelivery | ⟨handle, htouches, hfd⟩
    · exact Or.inr ⟨Or.inr hdelivery, hnone⟩
    · exact absurd hfd (hleft handle htouches)
  · rcases hasks.touches_or hkey with ⟨handle, htouches, hfd⟩ | ⟨constructor, handles, rfl, hfd⟩
    · exact absurd hfd (hleft handle htouches)
    · exact absurd (moves.closed_of_watched hfd) hopen

end Filters

end Gaea.Sys
