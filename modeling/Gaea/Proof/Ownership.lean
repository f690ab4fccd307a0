import Gaea.Library.Ledger
import Gaea.Library.Run
import Gaea.Proof.ProgramSteps

/-!
# Who owns the descriptors

Every descriptor that a program has open belongs to one of its handles and to no other, and is
closed when the handle is dropped. What is left over are the descriptors that the program was
started with, and those that failed constructors have lost. No closed descriptor is registered.
-/

namespace Gaea.Sys

open Kqueue Ledger Transition

/-! ## The ledger of the descriptors -/

/-- The descriptors that failed constructors have lost. -/
def lostIn (trace : List Occurrence) : Set RawFd :=
  {fd | ∃ constructor lost, .failed constructor lost ∈ trace ∧ fd ∈ lost}

theorem lostIn_snoc (trace : List Occurrence) (event : Occurrence) :
    lostIn (trace ++ [event]) = lostIn trace ∪ lostIn [event] := by
  ext fd
  simp only [lostIn, List.mem_append, Set.mem_union, Set.mem_ofPred_eq]
  constructor
  · rintro ⟨constructor, lost, htrace | hevent, hfd⟩
    · exact Or.inl ⟨constructor, lost, htrace, hfd⟩
    · exact Or.inr ⟨constructor, lost, hevent, hfd⟩
  · rintro (⟨constructor, lost, htrace, hfd⟩ | ⟨constructor, lost, hevent, hfd⟩)
    · exact ⟨constructor, lost, Or.inl htrace, hfd⟩
    · exact ⟨constructor, lost, Or.inr hevent, hfd⟩

theorem lostIn_singleton (constructor : Constructor) (lost : Set RawFd) :
    lostIn [.failed constructor lost] = lost := by
  ext fd
  simp only [lostIn, List.mem_singleton, Set.mem_ofPred_eq]
  constructor
  · rintro ⟨_, _, ⟨⟩, hfd⟩
    exact hfd
  · intro hfd
    exact ⟨constructor, lost, rfl, hfd⟩

/-- What is kept by every step: each open descriptor is owned once, or it is astray, and those that
are astray are not touched. -/
structure Sound (program : Program) : Prop where
  tidy : Tidy program.process
  balanced : Balanced program.process.opened program.owned program.stray

/-- What a step does to the descriptors that are astray. -/
structure Strays (before : Program) (event : Occurrence) (after : Program) : Prop where
  stray_eq : after.stray = before.stray ∪ lostIn [event]
  files_eq : ∀ fd ∈ before.stray, after.process.files fd = before.process.files fd
  guarded : ∀ constructor lost, event = .failed constructor lost →
    constructor.isGuarded = true → lost = ∅

theorem Strays.of_files_eq {before after : Program} {event : Occurrence}
    (hevent : ∀ constructor lost, event ≠ .failed constructor lost)
    (hstray : after.stray = before.stray)
    (hfiles : ∀ fd ∈ before.stray, after.process.files fd = before.process.files fd) :
    Strays before event after := by
  have hnone : lostIn [event] = ∅ := by
    ext fd
    simp only [lostIn, List.mem_singleton, Set.mem_ofPred_eq, Set.mem_empty_iff_false, iff_false]
    rintro ⟨constructor, lost, heq, -⟩
    exact hevent constructor lost heq.symm
  refine ⟨by rw [hnone, Set.union_empty, hstray], hfiles, fun constructor lost heq => ?_⟩
  exact absurd heq (hevent constructor lost)

namespace Sound

variable {program : Program} {handle : Handle} {fd : RawFd}

theorem mem_owned (hlive : handle ∈ program.live) (hfd : fd ∈ Owner.fds handle) :
    fd ∈ program.owned := Multiset.mem_bind.mpr ⟨handle, hlive, hfd⟩

theorem open_of_live (h : Sound program) (hlive : handle ∈ program.live)
    (hfd : fd ∈ Owner.fds handle) : program.process.files fd ≠ none :=
  Option.isSome_iff_ne_none.mp (h.balanced.mem_taken (mem_owned hlive hfd))

theorem open_of_stray (h : Sound program) (hfd : fd ∈ program.stray) :
    program.process.files fd ≠ none :=
  Option.isSome_iff_ne_none.mp (h.balanced.mem_taken_of_stray hfd)

theorem notMem_of_stray (h : Sound program) (hfd : fd ∈ program.stray)
    (hlive : handle ∈ program.live) : fd ∉ Owner.fds handle :=
  fun hmem => h.balanced.notMem_stray fd (mem_owned hlive hmem) hfd

theorem eq_of_live (h : Sound program) {other : Handle} (hlive : handle ∈ program.live)
    (hother : other ∈ program.live) (hfd : fd ∈ Owner.fds handle) (hfd' : fd ∈ Owner.fds other) :
    other = handle := by
  obtain ⟨process, live, stray⟩ := program
  by_contra hne
  obtain ⟨rest, rfl⟩ := Multiset.exists_cons_of_mem hlive
  obtain ⟨rest, rfl⟩ := Multiset.exists_cons_of_mem ((Multiset.mem_cons.mp hother).resolve_left hne)
  have howned : Program.owned ⟨process, handle ::ₘ other ::ₘ rest, stray⟩
      = (Owner.fds handle : Multiset RawFd) + Owner.fds other
        + rest.bind fun handle => (Owner.fds handle : Multiset RawFd) := by
    rw [Program.owned, Multiset.cons_bind, Multiset.cons_bind, add_assoc]
  exact h.balanced.ne_of_mem howned hfd hfd' rfl

/-- A step that has nothing to do with a handle has to do with none of its descriptors. -/
theorem notMem_of_touches (h : Sound program) {event : Occurrence} {after : Program}
    (moves : Moves program event after) (hlive : handle ∈ program.live)
    (hleft : ¬ event.Touches handle) (hfd : fd ∈ Owner.fds handle) :
    ∀ other, event.Touches other → fd ∉ Owner.fds other := by
  intro other htouches hfd'
  rw [h.eq_of_live hlive (moves.live_of_touches htouches) hfd hfd'] at htouches
  exact hleft htouches

/-- What a step asks for concerns descriptors that are open. -/
theorem tidy_of_quiet (h : Sound program) {event : Occurrence} {after : Process KernelQueue}
    (hevent : event.IsQuiet) (hquiet : Quiet event program.process after)
    (hlive : ∀ handle, event.Touches handle → handle ∈ program.live) : Tidy after := by
  refine ⟨clean_iff.mpr fun fd hclosed file key hkey => ?_, hquiet.newQueue_eq⟩
  rw [hquiet.files_eq] at hclosed
  rcases hquiet.entry_cases file key with hsame | ⟨-, hnone⟩ | ⟨knote, -, hasks⟩
  · rw [hsame]
    exact clean_iff.mp h.tidy.clean fd hclosed file key hkey
  · exact hnone
  · rcases hasks.touches_or hkey with ⟨handle, htouches, hfd⟩ | ⟨constructor, handles, rfl, -⟩
    · exact absurd hclosed (h.open_of_live (hlive handle htouches) hfd)
    · exact hevent.elim

theorem moves {before after : Program} {event : Occurrence} (h : Sound before)
    (moves : Moves before event after) : Sound after := by
  cases moves with
  | @opens process after live stray constructor handles hbuilds hgrows =>
      refine ⟨hbuilds.tidy, ?_⟩
      have howned : Program.owned ⟨after, live + handles, stray⟩
          = Program.owned ⟨process, live, stray⟩ + fdsOf handles := by
        rw [Program.owned, Multiset.add_bind, Multiset.coe_bind, Program.owned, fdsOf]
      change Balanced after.opened _ stray
      rw [opened_of_extends hbuilds, howned]
      exact h.balanced.take (Multiset.coe_nodup.mpr hbuilds.nodup)
        (notMem_opened_of_extends hbuilds)
  | @loses process after live stray constructor lost hextends hguarded hgrows =>
      refine ⟨hextends.tidy, ?_⟩
      change Balanced after.opened _ _
      rw [opened_of_extends hextends]
      exact h.balanced.lose (notMem_opened_of_extends hextends)
  | @quiet process after live stray event hevent hquiet hlive =>
      refine ⟨h.tidy_of_quiet hevent hquiet hlive, ?_⟩
      change Balanced after.opened _ _
      rw [Process.opened, hquiet.files_eq]
      exact h.balanced
  | @turns process live stray handle handle' hturned =>
      refine ⟨h.tidy, ?_⟩
      have hbalanced := h.balanced
      rw [Program.owned, Multiset.cons_bind] at hbalanced ⊢
      rw [hturned.fds_eq]
      exact hbalanced
  | @drops process live stray handle =>
      obtain ⟨htidy, hopened, -⟩ := foldr_close (Owner.fds handle) h.tidy
      refine ⟨htidy, ?_⟩
      have hbalanced := h.balanced
      rw [Program.owned, Multiset.cons_bind] at hbalanced
      have hback := hbalanced.giveBack
      change Balanced (handle.drop process).opened _ stray
      rw [Handle.drop, hopened]
      exact hback

theorem strays {before after : Program} {event : Occurrence} (h : Sound before)
    (moves : Moves before event after) : Strays before event after := by
  have hfiles (fd : RawFd) (hfd : fd ∈ before.stray) :
      after.process.files fd = before.process.files fd :=
    moves.files_of_open h.tidy (h.open_of_stray hfd) fun handle htouches =>
      h.notMem_of_stray hfd (moves.live_of_touches htouches)
  cases moves with
  | opens hbuilds hgrows => exact .of_files_eq nofun rfl hfiles
  | loses hextends hguarded hgrows =>
      refine ⟨by rw [lostIn_singleton], hfiles, ?_⟩
      rintro constructor lost heq hguard
      cases heq
      simp [hguarded hguard]
  | quiet hevent hquiet hlive =>
      refine .of_files_eq ?_ rfl hfiles
      rintro constructor lost rfl
      exact hevent
  | turns hturned => exact .of_files_eq nofun rfl hfiles
  | drops handle => exact .of_files_eq nofun rfl hfiles

end Sound

/-! ## Runs -/

theorem sound_start {process : Process KernelQueue} (htidy : Tidy process) :
    Sound (Program.start process) := ⟨htidy, Balanced.of_stray process.opened⟩

/-- What the steps of sound programs keep holds after every run of a sound program. -/
theorem Sound.invariant {start : Program} (hsound : Sound start)
    {I : List Occurrence → Program → Prop} (hinit : I [] start)
    (hmoves : ∀ trace before event after, Sound before → Moves before event after →
      I trace before → I (trace ++ [event]) after)
    {trace : List Occurrence} {program : Program} (run : Run Step start trace program) :
    Sound program ∧ I trace program := by
  refine run.invariant (I := fun trace program => Sound program ∧ I trace program)
    ⟨hsound, hinit⟩ ?_
  rintro trace before event after ⟨hbefore, h⟩ step
  have moves := step.moves hbefore.tidy
  exact ⟨hbefore.moves moves, hmoves trace before event after hbefore moves h⟩

/-- The ledger of a run. -/
structure Ledgered (process : Process KernelQueue) (trace : List Occurrence) (program : Program) :
    Prop where
  stray_eq : program.stray = process.opened ∪ lostIn trace
  files_eq : ∀ fd ∈ process.opened, program.process.files fd = process.files fd
  guarded : ∀ constructor lost, .failed constructor lost ∈ trace →
    constructor.isGuarded = true → lost = ∅

theorem ledgered_of_run {process : Process KernelQueue} (htidy : Tidy process)
    {trace : List Occurrence} {program : Program}
    (run : Run Step (Program.start process) trace program) :
    Sound program ∧ Ledgered process trace program := by
  refine (sound_start htidy).invariant (I := Ledgered process) ⟨?_, fun _ _ => rfl, nofun⟩ ?_ run
  · have hnone : lostIn [] = ∅ := by simp [lostIn]
    rw [hnone, Set.union_empty]
    rfl
  · intro trace before event after hsound moves h
    have hstrays := hsound.strays moves
    refine ⟨?_, fun fd hfd => ?_, fun constructor lost hmem => ?_⟩
    · rw [hstrays.stray_eq, h.stray_eq, lostIn_snoc, Set.union_assoc]
    · rw [hstrays.files_eq fd (h.stray_eq ▸ Or.inl hfd), h.files_eq fd hfd]
    · rcases List.mem_append.mp hmem with hmem | hmem
      · exact h.guarded constructor lost hmem
      · exact hstrays.guarded constructor lost (List.mem_singleton.mp hmem).symm

/-- **Who owns the descriptors.** In every run, whatever fails on the way, no descriptor belongs to
two handles, and those of the handles are open. The other open descriptors are the ones that were
open at the start, which stay what they were, and the ones that failed constructors have lost, which
guarded constructors do not. Nothing is registered under a closed descriptor. -/
theorem ownership {process : Process KernelQueue} (htidy : Tidy process) {trace : List Occurrence}
    {program : Program} (run : Run Step (Program.start process) trace program) :
    program.owned.Nodup
      ∧ program.process.opened
        = {fd | fd ∈ program.owned} ∪ process.opened ∪ lostIn trace
      ∧ (∀ fd ∈ program.owned, fd ∉ process.opened ∧ fd ∉ lostIn trace)
      ∧ (∀ fd ∈ process.opened, program.process.files fd = process.files fd)
      ∧ (∀ constructor lost, .failed constructor lost ∈ trace → constructor.isGuarded = true →
        lost = ∅)
      ∧ ∀ fd, fd ∉ program.process.opened → ∀ file kqueue,
        program.process.queues file = some kqueue →
        ∀ filter ∈ [Filter.read, .write], kqueue.knotes (identOf fd, filter) = none := by
  obtain ⟨⟨hfinal, hbalanced⟩, ⟨hstray, hfiles, hguarded⟩⟩ := ledgered_of_run htidy run
  refine ⟨hbalanced.nodup, ?_, fun fd hfd => ?_, hfiles, hguarded, ?_⟩
  · rw [hbalanced.taken_eq, hstray, Set.union_assoc]
  · have hnot := hbalanced.notMem_stray fd hfd
    rw [hstray, Set.mem_union, not_or] at hnot
    exact hnot
  · intro fd hclosed file kqueue hqueue filter hfilter
    apply hfinal.clean fd (closed_of_notMem hclosed) file kqueue hqueue
    rcases List.mem_pair.mp hfilter with rfl | rfl
    · exact List.mem_cons_self
    · exact List.mem_cons_of_mem _ List.mem_cons_self

/-- A pipe is opened, its sender is dropped, and a stream cannot be connected: its socket takes the
descriptor of the sender, and stays open. -/
theorem ownership_of_lost_socket :
    let errno : Call → Option Int32
      | .connect _ _ => some 61
      | _ => none
    let process := Process.new ⟨firstClosed [3, 4], errno, 36, KernelQueue.empty⟩
    ∃ trace program, Run Step (Program.start process) trace program
      ∧ program.owned = {3} ∧ 4 ∈ program.process.opened ∧ 4 ∈ lostIn trace := by
  intro errno process
  let sender : Handle := .sender ⟨4⟩
  let receiver : Handle := .receiver ⟨3⟩
  have htidy : Tidy process := ⟨nofun, fun _ => rfl⟩
  have hbuild : Step (Program.start process) (.built .newPipe [sender, receiver])
      ⟨_, sender ::ₘ {receiver}, _⟩ := .build nofun rfl
  have hfail : Step ⟨sender.drop (newPipe process).2, {receiver}, process.opened⟩
      (.failed (.connect (.v4 0x7f000001#32 80)) _) _ := .fail nofun rfl
  have run := ((Run.nil.snoc hbuild).snoc (.drop sender)).snoc hfail
  obtain ⟨-, hopened, -⟩ := ownership htidy run
  refine ⟨_, _, run, rfl, rfl, ?_⟩
  rcases (Set.ext_iff.mp hopened 4).mp rfl with (howned | hstart) | hlost
  · cases List.mem_singleton.mp howned
  · cases hstart
  · exact hlost

end Gaea.Sys
