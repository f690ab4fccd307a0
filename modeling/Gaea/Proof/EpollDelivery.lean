import Gaea.Library.Deliveries
import Gaea.Proof.EpollInterests
import Gaea.Sys.EpollInstance

/-!
# Polls of an epoll instance

An instance delivers from its list of ready handles. As long as no other handle is registered with
the id of a handle, the events with that id are its own.
-/

namespace Gaea.Sys.Epoll

/-! ## Deliveries -/

theorem mask_entryOf (registration : Registration) :
    (entryOf registration).mask
      = toEpollEvents registration.interests registration.opt ||| epollErr ||| epollHup := by
  have hpublic :
      toEpollEvents registration.interests registration.opt &&& ~~~epPrivateBits ≠ 0 := by
    unfold toEpollEvents
    cases registration.interests.isReadable <;> cases registration.interests.isWritable
      <;> cases registration.opt.isEdge <;> cases registration.opt.isOneshot <;> decide
  exact if_neg hpublic

theorem report_eq_some {table left : Table} {fd : RawFd} {bits : UInt32} {event : EpollEvent}
    (h : table.report fd bits = some (event, left)) :
    ∃ given, table.entries fd = some given ∧ bits &&& given.mask ≠ 0
      ∧ event = ⟨bits &&& given.mask, given.u64⟩
      ∧ left = ⟨Function.update table.entries fd (some
        (if containsFlag given.events epollOneshot then given.disabled else given))⟩ := by
  obtain ⟨given, hgiven, hreport⟩ := Option.bind_eq_some_iff.mp h
  obtain ⟨hne, heq⟩ := Option.ite_none_left_eq_some.mp hreport
  obtain ⟨rfl, rfl⟩ := Prod.mk.inj (Option.some.inj heq)
  exact ⟨given, hgiven, hne, rfl, rfl⟩

theorem epEventToEvent_epollIn (id : Id) :
    epEventToEvent ⟨epollIn, id.val⟩ = ⟨id, Ready.readable⟩ := by
  have hreadable : containsFlag epollIn (epollIn ||| epollPri) = true := by decide
  have hwritable : containsFlag epollIn epollOut = false := by decide
  have herror : containsFlag epollIn epollErr = false := by decide
  have hhup : containsFlag epollIn (epollRdHup ||| epollHup) = false := by decide
  have hready : Ready.empty ||| Ready.readable = Ready.readable := by decide
  simp only [epEventToEvent, hreadable, hwritable, herror, hhup, hready, if_true,
    Bool.false_eq_true, if_false]

/-- What the entry of a handle reports, and leaves behind. -/
def Table.fire (table : Table) (ready : RawFd × UInt32) : Option (EpollEvent × Table) :=
  table.report ready.1 ready.2

theorem deliver_eq (table : Table) (maxevents : Nat) (ready : List (RawFd × UInt32)) :
    table.deliver maxevents ready = Deliveries.deliver Table.fire table maxevents ready := by
  induction ready generalizing table maxevents with
  | nil => cases maxevents <;> rfl
  | cons first ready ih =>
      cases maxevents with
      | zero => rfl
      | succ maxevents =>
          rw [Table.deliver]
          rcases hreport : table.report first.1 first.2 with _ | ⟨event, left⟩
          · rw [Deliveries.deliver_of_none hreport]
            exact ih table (maxevents + 1)
          · rw [Deliveries.deliver_of_some hreport, ← ih]

/-! ## Polls -/

namespace Instance

/-- The events that a poll with this much room takes. -/
def taken (inst : Instance) (capacity : Capacity) : List EpollEvent :=
  if inst.waitError.isSome then []
  else (inst.table.deliver (capacity.min eventsCap) inst.ready).1

def afterPoll (inst : Instance) (capacity : Capacity) : Instance :=
  if inst.waitError.isSome then inst
  else
    let delivered := inst.table.deliver (capacity.min eventsCap) inst.ready
    { inst with ready := delivered.2.1, table := delivered.2.2 }

/-- A poll adds to the sink what it takes of the instance. -/
theorem select_eq {ES : Type} [Sink ES] (selector : Selector) (sink : ES)
    (timeout : Option Duration) (inst : Instance) :
    (selector.select sink timeout inst).1
        = (if inst.taken (Sink.capacityLeft sink) = [] then sink
          else Sink.extend sink ((inst.taken (Sink.capacityLeft sink)).map epEventToEvent))
      ∧ (selector.select sink timeout inst).2.1 = inst.afterPoll (Sink.capacityLeft sink) := by
  unfold taken afterPoll
  by_cases hroom : Sink.capacityLeft sink = .limited 0
  · rw [select_of_no_room selector timeout inst hroom, hroom]
    have hnone : inst.table.deliver ((Capacity.limited 0).min eventsCap) inst.ready
        = ([], inst.ready, inst.table) := Table.deliver.eq_1 ..
    rw [hnone]
    obtain ⟨table, ready, waitError⟩ := inst
    cases waitError <;> exact ⟨rfl, rfl⟩
  · have hclamp : (Int32.ofNat ((Sink.capacityLeft sink).min eventsCap)).toNatClampNeg
        = (Sink.capacityLeft sink).min eventsCap :=
      Int32.toNatClampNeg_ofNat_of_lt (((Sink.capacityLeft sink).min_le eventsCap).trans_lt
        (by decide))
    simp only [Selector.select, if_neg (min_eventsCap_ne_zero hroom), Kernel.epollWait, hclamp]
    cases herror : inst.waitError with
    | some errno =>
        simp only [wait, herror, Option.isSome_some, if_true, and_self]
    | none =>
        have hlength : (inst.table.deliver ((Sink.capacityLeft sink).min eventsCap)
            inst.ready).1.length ≤ eventsCap := by
          rw [deliver_eq]
          exact (Deliveries.length_deliver_le _ _ _).trans (Capacity.min_le _ _)
        simp only [wait, herror, Option.isSome_none, Bool.false_eq_true, if_false]
        rw [take_written hlength _ _ fun slots =>
          (Sink.extend sink (slots.map slotToEvent), _, _), map_slotToEvent]
        split <;> exact ⟨rfl, rfl⟩

theorem log_select {ES : Type} [Sink ES] (selector : Selector) (sink : ES)
    (timeout : Option Duration) (inst : Instance) :
    (selector.select (⟨sink, []⟩ : Tap ES) timeout inst).1.log
      = (inst.taken (Sink.capacityLeft sink)).map epEventToEvent := by
  rw [(select_eq selector (⟨sink, []⟩ : Tap ES) timeout inst).1]
  split_ifs with hnone
  · have hnone : inst.taken (Sink.capacityLeft sink) = [] := hnone
    rw [hnone]
    rfl
  · rfl

end Instance

/-! ## One handle -/

/-- A handle has this entry, and no other handle has its id. -/
structure Table.Sole (table : Table) (fd : RawFd) (given : EpollEvent) : Prop where
  entry : table.entries fd = some given
  sole : ∀ fd' given', table.entries fd' = some given' → given'.u64 = given.u64 → fd' = fd

def EpollEvent.shares (given epEvent : EpollEvent) : Bool := epEvent.u64 = given.u64

section Sole

variable {fd : RawFd} {given : EpollEvent} {bits : UInt32}

/-- An entry that is no oneshot reports its handle over and over. -/
theorem owns_fire (honeshot : containsFlag given.events epollOneshot = false)
    (hbits : bits &&& given.mask ≠ 0) :
    Deliveries.Owns Table.fire (fun table => table.Sole fd given) (fun ready => ready.1 ≠ fd)
      given.shares (fd, bits) ⟨bits &&& given.mask, given.u64⟩ where
  fire_own table h := by
    refine ⟨table, ?_, h⟩
    have hsame : (⟨Function.update table.entries fd (some given)⟩ : Table) = table := by
      rw [← h.entry, Function.update_eq_self]
    rw [Table.fire, Table.report, h.entry]
    dsimp only [Option.bind_some]
    rw [if_neg hbits, honeshot, if_neg Bool.false_ne_true, hsame]
  mine_event := decide_eq_true rfl
  fire_other table ready event left h hne hfire := by
    obtain ⟨given', hgiven', -, rfl, rfl⟩ := report_eq_some hfire
    refine ⟨decide_eq_false fun hid => hne (h.sole _ _ hgiven' hid),
      (Function.update_of_ne hne.symm _ _).trans h.entry, fun fd' given'' hgiven'' hid => ?_⟩
    by_cases heq : fd' = ready.1
    · subst heq
      dsimp only at hgiven''
      rw [Function.update_self] at hgiven''
      have hu64 : given''.u64 = given'.u64 := by
        rw [← Option.some.inj hgiven'']
        split <;> rfl
      exact h.sole _ _ hgiven' (hu64.symm.trans hid)
    · exact h.sole fd' given'' ((Function.update_of_ne heq _ _).symm.trans hgiven'') hid

/-- The events with the id of the handle that a poll adds to the sink: at most one, of the handle,
which is there if the handle is ready and the poll gets to it. -/
theorem delivered_select {ES : Type} [Sink ES] {inst : Instance}
    (hsole : inst.table.Sole fd given) (honeshot : containsFlag given.events epollOneshot = false)
    (hbits : bits &&& given.mask ≠ 0) {ahead behind : List (RawFd × UInt32)} {present : Bool}
    (hready : inst.ready = ahead ++ (if present then [(fd, bits)] else []) ++ behind)
    (hothers : ∀ ready ∈ ahead ++ behind, ready.1 ≠ fd) (selector : Selector) (sink : ES)
    (timeout : Option Duration) :
    let polled := selector.select (⟨sink, []⟩ : Tap ES) timeout inst
    Deliveries.Delivered (Event.isOf ⟨given.u64⟩)
        (epEventToEvent ⟨bits &&& given.mask, given.u64⟩) present
        (inst.waitError.isNone
          && decide (ahead.length < (Sink.capacityLeft sink).min eventsCap)) polled.1.log
      ∧ polled.2.1.table.Sole fd given := by
  obtain ⟨hahead, hbehind⟩ := List.forall_mem_append.mp hothers
  have howns := @owns_fire fd given bits honeshot hbits
  obtain ⟨hdelivered, hafter⟩ := howns.delivered hsole
    ((Sink.capacityLeft sink).min eventsCap) hahead hbehind present
  rw [← hready, ← deliver_eq] at hdelivered hafter
  have hmine : Event.isOf ⟨given.u64⟩ (epEventToEvent ⟨bits &&& given.mask, given.u64⟩) = true :=
    decide_eq_true rfl
  dsimp only
  rw [Instance.log_select, (Instance.select_eq selector _ timeout inst).2, Instance.taken,
    Instance.afterPoll]
  cases inst.waitError with
  | some errno => exact ⟨.of_filter_nil hmine rfl fun _ => rfl, hsole⟩
  | none =>
      have hshares (epEvent : EpollEvent) :
          Event.isOf ⟨given.u64⟩ (epEventToEvent epEvent) = given.shares epEvent :=
        decide_eq_decide.mpr ⟨fun heq => congrArg Id.val heq, fun heq => congrArg Id.mk heq⟩
      exact ⟨hdelivered.map epEventToEvent howns.mine_event hshares, hafter⟩

end Sole

end Gaea.Sys.Epoll
