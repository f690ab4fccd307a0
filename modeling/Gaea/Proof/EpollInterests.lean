import Gaea.Library.Run
import Gaea.Observe
import Gaea.Registrations
import Gaea.Sys.EpollTable
import Gaea.Sys.ReadyList

/-!
# Interests and the events that epoll reports

The kernel keeps one entry a handle, with the mask and the `u64` it was last given, and reports
events within that mask. Every mask asks for `EPOLLPRI`, which is then reported as readable whether
or not the interests include it.
-/

namespace Gaea.Sys.Epoll

open Transition

inductive Label where
  | request (request : Request)
  /-- The events that the kernel reports, and those that are added to the sink. -/
  | poll (reports : List (RawFd × EpollEvent)) (handed : List Event)

def registered (labels : List Label) : Registrations :=
  labels.foldl
    (fun registrations label =>
      match label with
      | .request request => registrations.apply request
      | .poll _ _ => registrations)
    Registrations.empty

/-- An event within the mask that was last given for a handle, or of an error or a hang-up. -/
def Table.Reports (table : Table) (fd : RawFd) (epEvent : EpollEvent) : Prop :=
  ∃ given, table.entries fd = some given ∧ epEvent.u64 = given.u64
    ∧ epEvent.events &&& (given.events ||| epollErr ||| epollHup) = epEvent.events

/-- A poll is given these events by `epoll_wait`, no more of them than it asks for. -/
def Selector.Given {W ES : Type} [Kernel W] [Sink ES] (selector : Selector) (sink : ES)
    (timeout : Option Duration) (world : W) (epEvents : List EpollEvent) : Prop :=
  let room := (Sink.capacityLeft sink).min eventsCap
  let wait := (Kernel.epollWait selector.epfd (Int32.ofNat room)
    ((timeout.map durationToMillis).getD (-1)) world).1
  wait.ret = Int32.ofNat epEvents.length ∧ wait.written = epEvents ∧ epEvents.length ≤ room

/-- Requests that succeed, and polls in which the kernel reports events of registered handles. -/
inductive Step (selector : Selector) : Table → Label → Table → Prop where
  | register (table : Table) (fd : RawFd) (registration : Registration)
      (hok : (selector.register fd registration.id registration.interests registration.opt
        table).1 = .ok ()) :
      Step selector table (.request (.register fd registration))
        (selector.register fd registration.id registration.interests registration.opt table).2
  | reregister (table : Table) (fd : RawFd) (registration : Registration)
      (hok : (selector.reregister fd registration.id registration.interests registration.opt
        table).1 = .ok ()) :
      Step selector table (.request (.reregister fd registration))
        (selector.reregister fd registration.id registration.interests registration.opt table).2
  | deregister (table : Table) (fd : RawFd) (hok : (selector.deregister fd table).1 = .ok ()) :
      Step selector table (.request (.deregister fd)) (selector.deregister fd table).2
  | poll (table : Table) {W ES : Type} [Kernel W] [Sink ES] (reports : List (RawFd × EpollEvent))
      (sink : ES) (timeout : Option Duration) (world : W)
      (hreports : ∀ report ∈ reports, table.Reports report.1 report.2)
      (hgiven : selector.Given sink timeout world (reports.map Prod.snd)) :
      Step selector table
        (.poll reports (selector.select (⟨sink, []⟩ : Tap ES) timeout world).1.log) table

/-- An event has the id of a registration, and no readiness beyond its interests. -/
def Respects (registration : Registration) (event : Event) : Prop :=
  event.id = registration.id
    ∧ (event.readiness.isReadable → registration.interests.isReadable)
    ∧ (event.readiness.isWritable → registration.interests.isWritable)

/-! ## Masks -/

theorem isReadable_epEventToEvent (epEvent : EpollEvent) :
    (epEventToEvent epEvent).readiness.isReadable
      = containsFlag epEvent.events (epollIn ||| epollPri) := by
  unfold epEventToEvent
  dsimp only
  generalize containsFlag epEvent.events (epollIn ||| epollPri) = readable
  generalize containsFlag epEvent.events epollOut = writable
  generalize containsFlag epEvent.events epollErr = error
  generalize containsFlag epEvent.events (epollRdHup ||| epollHup) = hup
  revert readable writable error hup
  decide

theorem isWritable_epEventToEvent (epEvent : EpollEvent) :
    (epEventToEvent epEvent).readiness.isWritable = containsFlag epEvent.events epollOut := by
  unfold epEventToEvent
  dsimp only
  generalize containsFlag epEvent.events (epollIn ||| epollPri) = readable
  generalize containsFlag epEvent.events epollOut = writable
  generalize containsFlag epEvent.events epollErr = error
  generalize containsFlag epEvent.events (epollRdHup ||| epollHup) = hup
  revert readable writable error hup
  decide

/-- What is not in a mask is not in a part of it. -/
theorem and_eq_zero_of_subset {bits mask flag : UInt32} (hsub : bits &&& mask = bits)
    (hmask : mask &&& flag = 0) : bits &&& flag = 0 := by
  rw [← hsub, UInt32.and_assoc, hmask, UInt32.and_zero]

theorem toEpollEvents_and_epollOut {interests : Interests} (opt : RegisterOption)
    (hwritable : interests.isWritable = false) :
    (toEpollEvents interests opt ||| epollErr ||| epollHup) &&& epollOut = 0 := by
  unfold toEpollEvents
  rw [hwritable]
  cases interests.isReadable <;> cases opt.isEdge <;> cases opt.isOneshot <;> decide

theorem toEpollEvents_and_epollIn {interests : Interests} (opt : RegisterOption)
    (hreadable : interests.isReadable = false) :
    (toEpollEvents interests opt ||| epollErr ||| epollHup) &&& epollIn = 0 := by
  unfold toEpollEvents
  rw [hreadable]
  cases interests.isWritable <;> cases opt.isEdge <;> cases opt.isOneshot <;> decide

/-- A report within the mask of a registration respects it unless it has `EPOLLPRI` and the
interests are not readable. -/
theorem respects_iff {registration : Registration} {epEvent : EpollEvent}
    (hu64 : epEvent.u64 = registration.id.val)
    (hevents : epEvent.events
      &&& (toEpollEvents registration.interests registration.opt ||| epollErr ||| epollHup)
        = epEvent.events) :
    Respects registration (epEventToEvent epEvent)
      ↔ registration.interests.isReadable = true ∨ epEvent.events &&& epollPri = 0 := by
  have hid : (epEventToEvent epEvent).id = registration.id := congrArg Id.mk hu64
  have hwritable : containsFlag epEvent.events epollOut → registration.interests.isWritable := by
    intro hout
    by_contra hnone
    have hmask := toEpollEvents_and_epollOut registration.opt (eq_false_of_ne_true hnone)
    rw [containsFlag, and_eq_zero_of_subset hevents hmask] at hout
    cases hout
  have hreadable : registration.interests.isReadable = false →
      epEvent.events &&& (epollIn ||| epollPri) = epEvent.events &&& epollPri := by
    intro hnone
    have hmask := toEpollEvents_and_epollIn registration.opt hnone
    have hsplit : epEvent.events &&& (epollIn ||| epollPri)
        = epEvent.events &&& epollIn ||| epEvent.events &&& epollPri :=
      UInt32.toBitVec_inj.mp BitVec.and_or_distrib_left
    rw [hsplit, and_eq_zero_of_subset hevents hmask, UInt32.zero_or]
  rw [Respects, isReadable_epEventToEvent, isWritable_epEventToEvent]
  constructor
  · rintro ⟨-, hrespects, -⟩
    by_cases hinterest : registration.interests.isReadable = true
    · exact Or.inl hinterest
    · right
      have hevent : ¬ containsFlag epEvent.events (epollIn ||| epollPri) = true :=
        fun hcontains => hinterest (hrespects hcontains)
      rw [containsFlag, hreadable (eq_false_of_ne_true hinterest), bne_iff_ne, not_not] at hevent
      exact hevent
  · intro hcondition
    refine ⟨hid, fun hcontains => ?_, hwritable⟩
    by_contra hinterest
    rw [containsFlag, hreadable (eq_false_of_ne_true hinterest),
      hcondition.resolve_left hinterest] at hcontains
    cases hcontains

/-! ## Polls -/

section Polls

variable {W ES : Type} [Kernel W] [Sink ES] {selector : Selector} {sink : ES}
  {timeout : Option Duration} {world : W} {epEvents : List EpollEvent}

theorem select_of_given (h : selector.Given sink timeout world epEvents) :
    (selector.select sink timeout world).1
      = if epEvents = [] then sink else Sink.extend sink (epEvents.map epEventToEvent) := by
  obtain ⟨hret, hwritten, hlength⟩ := h
  by_cases hroom : Sink.capacityLeft sink = .limited 0
  · rw [hroom] at hlength
    have hnone : epEvents = [] := List.eq_nil_of_length_eq_zero (Nat.le_zero.mp hlength)
    rw [select_of_no_room selector timeout world hroom, if_pos hnone]
  · have hlength : epEvents.length ≤ eventsCap := hlength.trans (Capacity.min_le _ _)
    unfold Selector.select
    dsimp only
    rw [if_neg (min_eventsCap_ne_zero hroom), hret, hwritten]
    rw [take_written hlength _ _ fun slots =>
      (Sink.extend sink (slots.map slotToEvent), _, _), map_slotToEvent]
    split <;> rfl

/-- The events that a poll is given are translated and added to the sink, one by one. -/
theorem log_select_of_given (h : selector.Given sink timeout world epEvents) :
    (selector.select (⟨sink, []⟩ : Tap ES) timeout world).1.log
      = epEvents.map epEventToEvent := by
  have hselect : selector.Given (⟨sink, []⟩ : Tap ES) timeout world epEvents := h
  rw [select_of_given hselect]
  split_ifs with hnone
  · rw [hnone]
    rfl
  · rfl

end Polls

/-! ## Runs -/

theorem entries_of_ctl {table : Table} {epfd : RawFd} {op : CtlOp} {fd : RawFd}
    {event : Option EpollEvent} (hok : (epollCtl epfd op fd event table).1 = .ok ()) :
    (epollCtl epfd op fd event table).2.entries
      = Function.update table.entries fd (Table.entry op event) := by
  by_cases haccepts : table.accepts op fd = true
  · simp [epollCtl, Kernel.epollCtl, Table.ctl, haccepts]
  · simp [epollCtl, Kernel.epollCtl, Table.ctl, haccepts] at hok

def entryOf (registration : Registration) : EpollEvent :=
  newEpollEvent registration.interests registration.opt registration.id

/-- The table holds for each handle what its last registration asks for. -/
def Refines (labels : List Label) (table : Table) : Prop :=
  table.entries = fun fd => (registered labels fd).map entryOf

theorem registered_snoc_request (labels : List Label) (request : Request) :
    registered (labels ++ [.request request]) = (registered labels).apply request := by
  rw [registered, List.foldl_append]
  rfl

theorem registered_snoc_poll (labels : List Label) (reports : List (RawFd × EpollEvent))
    (handed : List Event) :
    registered (labels ++ [.poll reports handed]) = registered labels := by
  rw [registered, List.foldl_append]
  rfl

theorem Refines.update {labels : List Label} {table : Table} (h : Refines labels table)
    (fd : RawFd) (registration : Option Registration) :
    Function.update table.entries fd (registration.map entryOf)
      = fun fd' => (Function.update (registered labels) fd registration fd').map
        entryOf := by
  funext fd'
  rw [h]
  by_cases heq : fd' = fd
  · rw [heq, Function.update_self, Function.update_self]
  · rw [Function.update_of_ne heq, Function.update_of_ne heq]

theorem Refines.step {selector : Selector} {labels : List Label} {s t : Table} {label : Label}
    (h : Refines labels s) (step : Step selector s label t) : Refines (labels ++ [label]) t := by
  cases step with
  | register fd registration hok =>
      rw [Refines, registered_snoc_request, Registrations.apply, ← h.update]
      exact entries_of_ctl hok
  | reregister fd registration hok =>
      rw [Refines, registered_snoc_request, Registrations.apply, ← h.update]
      exact entries_of_ctl hok
  | deregister fd hok =>
      rw [Refines, registered_snoc_request, Registrations.apply, ← h.update]
      exact entries_of_ctl hok
  | poll reports sink timeout world hreports hgiven =>
      rw [Refines, registered_snoc_poll]
      exact h

theorem refines_of_run {selector : Selector} {labels : List Label} {s : Table}
    (run : Run (Step selector) Table.empty labels s) : Refines labels s := by
  apply run.invariant (I := Refines)
  · rfl
  · intro labels s label t hrefines step
    exact hrefines.step step

theorem Refines.respects_iff {labels : List Label} {table : Table} (h : Refines labels table)
    {fd : RawFd} {epEvent : EpollEvent} (hreports : table.Reports fd epEvent) :
    ∃ registration, registered labels fd = some registration
      ∧ (epEventToEvent epEvent).id = registration.id
      ∧ (Respects registration (epEventToEvent epEvent)
        ↔ registration.interests.isReadable = true ∨ epEvent.events &&& epollPri = 0) := by
  obtain ⟨given, hgiven, hu64, hevents⟩ := hreports
  rw [h] at hgiven
  obtain ⟨registration, hregistered, rfl⟩ := Option.map_eq_some_iff.mp hgiven
  exact ⟨registration, hregistered, congrArg Id.mk hu64, Epoll.respects_iff hu64 hevents⟩

/-- **Interests and reports.** Whatever has been registered, a poll adds one event to the sink for
each that the kernel reports. It is one of a handle that is registered, with the id of its last
registration, and it is within the interests of that registration if and only if these include
readable or `EPOLLPRI` has not been reported. -/
theorem report_respects_iff {selector : Selector} {before after : List Label}
    {reports : List (RawFd × EpollEvent)} {handed : List Event} {s : Table}
    (run : Run (Step selector) Table.empty (before ++ .poll reports handed :: after) s) :
    List.Forall₂ (fun report event => ∃ registration, registered before report.1 = some registration
        ∧ event.id = registration.id
        ∧ (Respects registration event
          ↔ registration.interests.isReadable = true ∨ report.2.events &&& epollPri = 0))
      reports handed := by
  obtain ⟨t, u, run, step⟩ := run.before_step
  have hrefines := refines_of_run run
  cases step with
  | poll _ sink timeout world hreports hgiven =>
      rw [log_select_of_given hgiven, List.map_map, List.forall₂_map_right_iff,
        List.forall₂_same]
      intro report hmem
      exact hrefines.respects_iff (hreports report hmem)

/-- Urgent data on a handle that was registered for writing, and then re-registered for both. -/
theorem report_respects_after_reregister :
    Respects ⟨⟨8⟩, Interests.both, RegisterOption.edge⟩ ⟨⟨8⟩, Ready.readable⟩ := by
  let writer : Registration := ⟨⟨7⟩, Interests.writable, RegisterOption.edge⟩
  let both : Registration := ⟨⟨8⟩, Interests.both, RegisterOption.edge⟩
  let urgent : EpollEvent := ⟨epollPri, 8⟩
  let world : ReadyList EpollEvent := ⟨[urgent], .ok 1, []⟩
  have hregister := Run.nil.snoc (@Step.register ⟨0⟩ Table.empty 3 writer (by decide))
  have hreregister := hregister.snoc (.reregister _ 3 both (by decide))
  have hlog : (Selector.select ⟨0⟩ (⟨[], []⟩ : Tap (List Event)) none world).1.log
      = [⟨⟨8⟩, Ready.readable⟩] := by
    decide
  have hpoll := hreregister.snoc (.poll _ [(3, urgent)] ([] : List Event) none world
    (List.forall_mem_singleton.mpr ⟨entryOf both, rfl, rfl, by decide⟩)
    ⟨rfl, rfl, by decide⟩)
  rw [hlog] at hpoll
  have hrespects := @report_respects_iff ⟨0⟩
    [.request (.register 3 writer), .request (.reregister 3 both)] [] [(3, urgent)] _ _ hpoll
  obtain ⟨registration, hregistered, -, hrespects⟩ := (List.forall₂_cons.mp hrespects).1
  obtain rfl : both = registration := Option.some.inj hregistered
  exact hrespects.mpr (Or.inl (by decide))

/-- Urgent data on a handle that was registered for writing only: the event is readable. -/
theorem urgent_report_not_respects :
    let writer : Registration := ⟨⟨7⟩, Interests.writable, RegisterOption.edge⟩
    (∃ s, Run (Step ⟨0⟩) Table.empty
      [.request (.register 3 writer), .poll [(3, ⟨epollPri, 7⟩)] [⟨⟨7⟩, Ready.readable⟩]] s)
      ∧ ¬ Respects writer ⟨⟨7⟩, Ready.readable⟩ := by
  intro writer
  let urgent : EpollEvent := ⟨epollPri, 7⟩
  let world : ReadyList EpollEvent := ⟨[urgent], .ok 1, []⟩
  have hregister := Run.nil.snoc (@Step.register ⟨0⟩ Table.empty 3 writer (by decide))
  have hlog : (Selector.select ⟨0⟩ (⟨[], []⟩ : Tap (List Event)) none world).1.log
      = [⟨⟨7⟩, Ready.readable⟩] := by
    decide
  have hpoll := hregister.snoc (.poll _ [(3, urgent)] ([] : List Event) none world
    (List.forall_mem_singleton.mpr ⟨entryOf writer, rfl, rfl, by decide⟩)
    ⟨rfl, rfl, by decide⟩)
  rw [hlog] at hpoll
  refine ⟨⟨_, hpoll⟩, ?_⟩
  unfold Respects
  decide

end Gaea.Sys.Epoll
