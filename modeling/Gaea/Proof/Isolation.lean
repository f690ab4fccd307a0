import Gaea.Library.Traces
import Gaea.Observe
import Gaea.Proof.Ownership

/-!
# Handles do not disturb each other

Descriptors are numbers, and numbers are used again. What is done to one handle must not change what
another one is watched for, and what was asked of a handle must be forgotten when it is dropped,
whoever gets its descriptor next.
-/

namespace Gaea.Sys

open Kqueue Ledger Transition

/-! ## Where a program starts -/

/-- A process in which no kqueue has any filters, nor has a new one. -/
structure Blank (process : Process KernelQueue) : Prop where
  newQueue : ∀ key, process.answers.newQueue.knotes key = none
  entry_eq_none : ∀ file key, process.entry file key = none

theorem Blank.tidy {process : Process KernelQueue} (h : Blank process) : Tidy process :=
  ⟨clean_iff.mpr fun _ _ file key _ => h.entry_eq_none file key, h.newQueue⟩

section Registered

variable {before after : Process KernelQueue} {live : Multiset Handle} {stray : Set RawFd}

theorem step_raw {fd : RawFd} (hrun : Constructor.run .raw before = (.ok [.raw fd], after)) :
    Step ⟨before, live, stray⟩ (.built .raw [.raw fd]) ⟨after, .raw fd ::ₘ live, stray⟩ := by
  have hlive : Handle.raw fd ::ₘ live = live + ([.raw fd] : List Handle) := by
    rw [Multiset.coe_singleton, add_comm, Multiset.singleton_add]
  rw [hlive]
  exact .build nofun hrun

/-- The steps that open a queue, and a descriptor. -/
theorem run_opened {process p₁ p₂ : Process KernelQueue} {osQueue : OsQueue Selector} {fd : RawFd}
    (h₁ : Constructor.run .newQueue process = (.ok [.queue osQueue], p₁))
    (h₂ : Constructor.run .raw p₁ = (.ok [.raw fd], p₂)) :
    Run Step (Program.start process) [.built .newQueue [.queue osQueue], .built .raw [.raw fd]]
      ⟨p₂, .raw fd ::ₘ {.queue osQueue}, process.opened⟩ := by
  have hqueue : Step (Program.start process) (.built .newQueue [.queue osQueue])
      ⟨p₁, {.queue osQueue}, process.opened⟩ := .build nofun h₁
  exact (Run.nil.snoc hqueue).snoc (step_raw h₂)

/-- The steps that open a queue and register a descriptor with it. -/
theorem run_registered {process p₁ p₂ p₃ : Process KernelQueue} {osQueue : OsQueue Selector}
    {fd : RawFd} {registration : Registration}
    (h₁ : Constructor.run .newQueue process = (.ok [.queue osQueue], p₁))
    (h₂ : Constructor.run .raw p₁ = (.ok [.raw fd], p₂))
    (h₃ : osQueue.selector.request (.register fd registration) p₂ = (.ok (), p₃)) :
    ∃ trace, (∀ handle handle', .turned handle handle' ∉ trace)
      ∧ Run Step (Program.start process) trace
        ⟨p₃, .raw fd ::ₘ {.queue osQueue}, process.opened⟩ := by
  have hregister : Step ⟨p₂, .raw fd ::ₘ {.queue osQueue}, process.opened⟩
      (.performed (.raw fd) osQueue (.register registration))
      ⟨p₃, .raw fd ::ₘ {.queue osQueue}, process.opened⟩ :=
    .perform (Multiset.mem_cons_self _ _)
      (Multiset.mem_cons_of_mem (Multiset.mem_singleton_self _)) (congrArg some h₃)
  exact ⟨_, by simp, (run_opened h₁ h₂).snoc hregister⟩

/-- It is up to the system which filters are going to fire. -/
def fired (active : List Key) (process : Process KernelQueue) : Process KernelQueue :=
  { process with
    queues := fun file => (process.queues file).map fun kqueue => { kqueue with active } }

end Registered

/-! ## Isolation -/

/-- What has become of a handle that nothing has been done to. -/
structure LeftAlone (handle : Handle) (before : Program) (later : List Occurrence)
    (after : Program) : Prop where
  live : handle ∈ after.live
  nextFile_le : before.process.nextFile ≤ after.process.nextFile
  files_eq : ∀ fd ∈ Owner.fds handle, after.process.files fd = before.process.files fd
  entry_cases : ∀ fd ∈ Owner.fds handle, ∀ file < before.process.nextFile,
    ∀ key ∈ descriptorKeys fd, after.process.entry file key = before.process.entry file key
      ∨ after.process.entry file key = none ∧ ∃ event ∈ later, event.IsDelivery

theorem LeftAlone.snoc {handle : Handle} {start before after : Program} {later : List Occurrence}
    {event : Occurrence} (h : LeftAlone handle start later before) (hsound : Sound before)
    (moves : Moves before event after) (hleft : ¬ event.Touches handle) :
    LeftAlone handle start (later ++ [event]) after := by
  have hothers (fd : RawFd) (hfd : fd ∈ Owner.fds handle) :=
    hsound.notMem_of_touches moves h.live hleft hfd
  constructor
  · exact moves.live_of_live h.live hleft
  · exact h.nextFile_le.trans (moves.nextFile_le hsound.tidy)
  · intro fd hfd
    rw [← h.files_eq fd hfd]
    exact moves.files_of_open hsound.tidy (hsound.open_of_live h.live hfd) (hothers fd hfd)
  · intro fd hfd file hlt key hkey
    have hold := h.entry_cases fd hfd file hlt key hkey
    have hopen := hsound.open_of_live h.live hfd
    rcases moves.entry_of_open hopen (hothers fd hfd) hkey file with
      hsame | ⟨hle | hdelivery, hnone⟩
    · rw [hsame]
      rcases hold with hold | ⟨hnone, delivery, hmem, hdelivery⟩
      · exact Or.inl hold
      · exact Or.inr ⟨hnone, delivery, List.mem_append_left _ hmem, hdelivery⟩
    · exact absurd (h.nextFile_le.trans hle) (not_le.mpr hlt)
    · have hmem : event ∈ later ++ [event] :=
        List.mem_append_right _ (List.mem_singleton_self event)
      exact Or.inr ⟨hnone, event, hmem, hdelivery⟩

theorem leftAlone_of_run {before after : Program} (hsound : Sound before) {later : List Occurrence}
    (rest : Run Step before later after) {handle : Handle} (hlive : handle ∈ before.live)
    (hleft : ∀ event ∈ later, ¬ event.Touches handle) : LeftAlone handle before later after := by
  refine (hsound.invariant (I := fun later after => (∀ event ∈ later, ¬ event.Touches handle) →
    LeftAlone handle before later after) ?_ ?_ rest).2 hleft
  · exact fun _ => ⟨hlive, le_rfl, fun _ _ => rfl, fun _ _ _ _ _ _ => Or.inl rfl⟩
  · intro later before event after hsound moves ih hleft
    obtain ⟨hlater, hevent⟩ := List.forall_mem_append.mp hleft
    exact (ih hlater).snoc hsound moves (hevent event (List.mem_singleton_self event))

/-- **Isolation.** As long as a handle is not dropped, turned or registered itself, it stays alive
and open for the same file, whatever is built, dropped and registered besides, and whatever fails.
Each of its filters stays what it was, unless it is gone after a delivery. -/
theorem isolation {process : Process KernelQueue} (htidy : Tidy process)
    {trace later : List Occurrence} {before after : Program}
    (run : Run Step (Program.start process) trace before)
    (rest : Run Step before later after) {handle : Handle} (hlive : handle ∈ before.live)
    (hleft : ∀ event ∈ later, ¬ event.Touches handle) :
    LeftAlone handle before later after := by
  have hsound : Sound before := (ledgered_of_run htidy run).1
  exact leftAlone_of_run hsound rest hlive hleft

/-- A descriptor is registered, and one that is opened later is dropped. -/
theorem isolation_of_dropped_neighbour :
    let process := Process.new ⟨firstClosed [3, 4, 5], fun _ => none, 36, KernelQueue.empty⟩
    let registration : Registration := ⟨⟨7⟩, Interests.readable, RegisterOption.edge⟩
    ∃ trace before after, Run Step (Program.start process) trace before
      ∧ before.process.entry 0 (identOf 4, .read) = some (knoteOf registration)
      ∧ LeftAlone (.raw 4) before [.built .raw [.raw 5], .dropped (.raw 5)] after := by
  intro process registration
  let osQueue : OsQueue Selector := ⟨⟨3⟩⟩
  have halone {p q : Process KernelQueue} {trace : List Occurrence}
      (run : Run Step (Program.start process) trace
        ⟨p, .raw 4 ::ₘ {.queue osQueue}, process.opened⟩)
      (hneighbour : Constructor.run .raw p = (.ok [.raw 5], q)) :
      LeftAlone (.raw 4) ⟨p, .raw 4 ::ₘ {.queue osQueue}, process.opened⟩
        [.built .raw [.raw 5], .dropped (.raw 5)]
        ⟨close 5 q, .raw 4 ::ₘ {.queue osQueue}, process.opened⟩ := by
    have hblank : Blank process := ⟨fun _ => rfl, fun _ _ => rfl⟩
    have hopened := @step_raw p q (.raw 4 ::ₘ {.queue osQueue}) process.opened 5 hneighbour
    have hlive : Handle.raw 4 ∈ Handle.raw 4 ::ₘ ({.queue osQueue} : Multiset Handle) :=
      Multiset.mem_cons_self _ _
    refine isolation hblank.tidy run ((Run.single hopened).snoc (.drop (.raw 5))) hlive ?_
    rintro event hmem htouches
    rcases List.mem_pair.mp hmem with rfl | rfl
    · exact htouches
    · cases htouches
  obtain ⟨trace, -, run⟩ := @run_registered process _ _ _ osQueue 4 registration
    (Prod.ext (by decide +kernel) rfl) (Prod.ext (by decide +kernel) rfl)
    (Prod.ext (by decide +kernel) rfl)
  exact ⟨trace, _, _, run, by decide +kernel, halone run (Prod.ext (by decide +kernel) rfl)⟩

/-! ## Nothing is stale -/

/-- A program in which nothing is registered under the descriptors that are astray. -/
def Unwatched (program : Program) : Prop :=
  ∀ fd ∈ program.stray, ∀ file, ∀ key ∈ descriptorKeys fd, program.process.entry file key = none

theorem Unwatched.moves {before after : Program} {event : Occurrence} (h : Unwatched before)
    (hsound : Sound before) (moves : Moves before event after) : Unwatched after := by
  intro fd hfd file key hkey
  rw [(hsound.strays moves).stray_eq] at hfd
  rcases hfd with hfd | ⟨constructor, lost, hmem, hfd⟩
  · have hopen := hsound.open_of_stray hfd
    have hothers (handle : Handle) (htouches : event.Touches handle) : fd ∉ Owner.fds handle :=
      hsound.notMem_of_stray hfd (moves.live_of_touches htouches)
    rcases moves.entry_of_open hopen hothers hkey file with hsame | ⟨-, hnone⟩
    · rw [hsame]
      exact h fd hfd file key hkey
    · exact hnone
  · obtain rfl := List.mem_singleton.mp hmem
    cases moves with
    | loses hextends hguarded hgrows =>
        exact hextends.entry_eq_none (hextends.closed fd hfd) List.not_mem_nil file hkey
    | quiet hevent hquiet hlive => exact hevent.elim

/-- A program in which no handle is watched for what it asserts is not asked of it. -/
def Asserted (program : Program) : Prop :=
  ∀ handle ∈ program.live, ∀ fd excluded, handle.evented = some (fd, excluded) →
    ∀ filter ∈ excluded, ∀ file, program.process.entry file (identOf fd, filter) = none

theorem mem_descriptorKeys_of_excluded {handle : Handle} {fd : RawFd} {excluded : List Filter}
    (hevented : handle.evented = some (fd, excluded)) {filter : Filter}
    (hfilter : filter ∈ excluded) : (identOf fd, filter) ∈ descriptorKeys fd := by
  cases handle <;> cases hevented <;> simp_all [descriptorKeys]

theorem Handle.watched_subset (handle : Handle) : handle.watched ⊆ Owner.fds handle := by
  cases handle with
  | pipeAwakener inner => exact List.subset_cons_self _ _
  | signals inner => exact List.Subset.refl _
  | raw fd => exact List.nil_subset _
  | stream inner | listener inner | socket inner | sender inner | receiver inner | queue inner
  | awakener inner => exact List.nil_subset _

theorem watched_of_evented {handle : Handle} {evented : RawFd × List Filter}
    (hevented : handle.evented = some evented) : handle.watched = [] := by
  cases handle <;> cases hevented <;> rfl

/-- What is excluded for a handle is not asked of it. -/
theorem Occurrence.Asks.notMem_excluded {event : Occurrence} {fd : RawFd} {filter : Filter}
    {id : Id} (h : event.Asks (identOf fd, filter) id) {handle : Handle}
    (htouches : event.Touches handle) {excluded : List Filter}
    (hevented : handle.evented = some (fd, excluded)) : filter ∉ excluded := by
  cases event with
  | performed handle' osQueue action =>
      obtain ⟨fd', excluded', registration, hevented', -, -, hnot, -⟩ := h
      obtain rfl := htouches
      obtain ⟨-, rfl⟩ := Prod.mk.inj (Option.some.inj (hevented.symm.trans hevented'))
      exact hnot
  | built constructor handles | failed constructor lost | polled osQueue | woken awakener
  | received signals | system => exact htouches.elim
  | dropped handle' | turned handle' handle'' => exact h.elim

/-- A handle is not watched when it is built, if it can be registered later. -/
theorem entry_of_built {process after : Process KernelQueue} {handles : List Handle}
    (hbuilds : Builds handles process after) {handle : Handle} (hmem : handle ∈ handles)
    {fd : RawFd} {excluded : List Filter} (hevented : handle.evented = some (fd, excluded))
    {file : File} {key : Key} (hkey : key ∈ descriptorKeys fd) : after.entry file key = none := by
  have hfd : fd ∈ Owner.fds handle := by
    rw [fds_of_evented hevented]
    exact List.mem_singleton_self fd
  have hclosed := hbuilds.closed fd (List.mem_flatMap.mpr ⟨handle, hmem, hfd⟩)
  refine hbuilds.entry_eq_none hclosed (fun hwatched => ?_) file hkey
  obtain ⟨other, hother, hfd'⟩ := List.mem_flatMap.mp hwatched
  have hsame : other = handle := by
    by_contra hne
    have hdisjoint := (List.nodup_flatMap.mp hbuilds.nodup).2
    have : Std.Symm (Function.onFun List.Disjoint (Owner.fds : Handle → List RawFd)) :=
      ⟨fun _ _ hdisjoint => List.Disjoint.symm hdisjoint⟩
    exact hdisjoint.forall hother hmem hne (other.watched_subset hfd') hfd
  rw [hsame, watched_of_evented hevented] at hfd'
  cases hfd'

theorem Asserted.moves {before after : Program} {event : Occurrence} (h : Asserted before)
    (hsound : Sound before) (moves : Moves before event after)
    (hturned : ∀ fd inner, event ≠ .turned (.raw fd) (.listener inner)) : Asserted after := by
  intro handle hlive fd excluded hevented filter hfilter file
  have hkey := mem_descriptorKeys_of_excluded hevented hfilter
  have hfd : fd ∈ Owner.fds handle := by
    rw [fds_of_evented hevented]
    exact List.mem_singleton_self fd
  have hold (hbefore : handle ∈ before.live) :
      after.process.entry file (identOf fd, filter) = none := by
    rcases moves.entry_cases file (identOf fd, filter) with hsame | ⟨-, hnone⟩ | ⟨knote, -, hasks⟩
    · rw [hsame]
      exact h handle hbefore fd excluded hevented filter hfilter file
    · exact hnone
    · rcases hasks.touches_or hkey with ⟨other, htouches, hfd'⟩ | ⟨constructor, handles, rfl, hnew⟩
      · have hsame := hsound.eq_of_live hbefore (moves.live_of_touches htouches) hfd hfd'
        rw [hsame] at htouches
        exact absurd hfilter (hasks.notMem_excluded htouches hevented)
      · exact absurd (moves.closed_of_watched hnew) (hsound.open_of_live hbefore hfd)
  cases moves with
  | opens hbuilds hgrows =>
      rcases Multiset.mem_add.mp hlive with hbefore | hmem
      · exact hold hbefore
      · exact entry_of_built hbuilds (Multiset.mem_coe.mp hmem) hevented hkey
  | loses hextends hguarded hgrows => exact hold hlive
  | quiet hevent hquiet _ => exact hold hlive
  | turns hturn =>
      rcases Multiset.mem_cons.mp hlive with rfl | hrest
      · rcases hturn.raw with ⟨fd', rfl⟩ | ⟨fd', rfl, hmem⟩
        · cases hevented
          cases hfilter
        · simp only [Handle.fromRawFd, List.mem_cons, List.not_mem_nil, or_false] at hmem
          rcases hmem with rfl | rfl | rfl
          · cases hevented
            cases hfilter
          · exact absurd rfl (hturned fd' _)
          · cases hevented
            cases hfilter
      · exact hold (Multiset.mem_cons_of_mem hrest)
  | drops handle' => exact hold (Multiset.mem_cons_of_mem hlive)

/-- **Assertions.** No kqueue ever has a filter of a handle that the handle asserts is not asked of
it: a listener and the receiving end of a pipe are never watched for writing, nor the sending end
for reading, whoever had their descriptors before. Only a listener that is made from a descriptor
may bring along filters of its own. -/
theorem assertions_hold {process : Process KernelQueue} (htidy : Tidy process)
    {trace : List Occurrence} {program : Program}
    (run : Run Step (Program.start process) trace program)
    (hturned : ∀ fd inner, .turned (.raw fd) (.listener inner) ∉ trace) :
    ∀ handle ∈ program.live, ∀ fd excluded, handle.evented = some (fd, excluded) →
      ∀ filter ∈ excluded, ∀ file, program.process.entry file (identOf fd, filter) = none := by
  refine ((sound_start htidy).invariant (I := fun trace program =>
    (∀ fd inner, .turned (.raw fd) (.listener inner) ∉ trace) → Asserted program) ?_ ?_ run).2
      hturned
  · exact fun _ handle hlive => absurd hlive (Multiset.notMem_zero handle)
  · intro trace before event after hsound moves ih hnot
    have hbefore := ih fun fd inner hmem => hnot fd inner (List.mem_append_left _ hmem)
    refine hbefore.moves hsound moves ?_
    rintro fd inner rfl
    exact hnot fd inner (List.mem_append_right _ (List.mem_singleton_self _))

/-- A descriptor that was registered for writing becomes the receiving end of a pipe. -/
theorem assertions_hold_for_receiver :
    let process := Process.new ⟨firstClosed [3, 4, 5], fun _ => none, 36, KernelQueue.empty⟩
    ∃ trace program, Run Step (Program.start process) trace program
      ∧ .receiver ⟨4⟩ ∈ program.live
      ∧ ∀ file, program.process.entry file (identOf 4, .write) = none := by
  intro process
  let osQueue : OsQueue Selector := ⟨⟨3⟩⟩
  let registration : Registration := ⟨⟨7⟩, Interests.both, RegisterOption.edge⟩
  let ends : List Handle := [.sender ⟨5⟩, .receiver ⟨4⟩]
  have hasserted {p q : Process KernelQueue} {trace : List Occurrence}
      (run : Run Step (Program.start process) trace
        ⟨p, .raw 4 ::ₘ {.queue osQueue}, process.opened⟩)
      (hturned : ∀ handle handle', .turned handle handle' ∉ trace)
      (hpipe : Constructor.run .newPipe (close 4 p) = (.ok ends, q)) :
      ∃ trace, Run Step (Program.start process) trace
          ⟨q, {.queue osQueue} + ends, process.opened⟩
        ∧ ∀ file, q.entry file (identOf 4, .write) = none := by
    have hbuilt : Step ⟨close 4 p, {.queue osQueue}, process.opened⟩ (.built .newPipe ends)
        ⟨q, {.queue osQueue} + ends, process.opened⟩ := .build nofun hpipe
    have run := (run.snoc (.drop (.raw 4))).snoc hbuilt
    have hblank : Blank process := ⟨fun _ => rfl, fun _ _ => rfl⟩
    have hlive : Handle.receiver ⟨4⟩ ∈ ({.queue osQueue} : Multiset Handle) + ends := by decide
    refine ⟨_, run, fun file => ?_⟩
    refine assertions_hold hblank.tidy run ?_ (.receiver ⟨4⟩) hlive 4 [.write] rfl
      .write (List.mem_singleton_self _) file
    simpa using fun fd inner => hturned (.raw fd) (.listener inner)
  obtain ⟨trace, hturned, run⟩ := @run_registered process _ _ _ osQueue 4 registration
    (Prod.ext (by decide +kernel) rfl) (Prod.ext (by decide +kernel) rfl)
    (Prod.ext (by decide +kernel) rfl)
  obtain ⟨trace, run, h⟩ := hasserted run hturned (Prod.ext (by decide +kernel) rfl)
  exact ⟨trace, _, run, by decide, h⟩

end Gaea.Sys
