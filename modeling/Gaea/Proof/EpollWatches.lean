import Gaea.Proof.EpollDelivery
import Gaea.Watches

/-!
# An epoll instance watches handles

An entry of epoll reports both directions of its handle at once, and is disabled as a whole after a
report under `ONESHOT`. So epoll shows nothing that the watched handles do not, and all of it where
no oneshot is for both directions.
-/

namespace Gaea.Sys.Epoll

open Transition

/-! ## Masks -/

theorem mask_disabled (given : EpollEvent) : given.disabled.mask = 0 := by
  have hprivate : given.events &&& epPrivateBits &&& ~~~epPrivateBits = 0 := by
    rw [UInt32.and_assoc, (by decide : epPrivateBits &&& ~~~epPrivateBits = 0), UInt32.and_zero]
  exact if_pos hprivate

theorem containsFlag_entryOf_epollOneshot (registration : Registration) :
    containsFlag (entryOf registration).events epollOneshot = registration.opt.isOneshot := by
  change containsFlag (toEpollEvents registration.interests registration.opt) epollOneshot = _
  unfold toEpollEvents
  cases registration.interests.isReadable <;> cases registration.interests.isWritable
    <;> cases registration.opt.isEdge <;> cases registration.opt.isOneshot <;> decide

def flagOf : Direction → UInt32
  | .read => epollIn
  | .write => epollOut

theorem flagOf_and_mask {registration : Registration} {direction : Direction}
    (h : registration.interests.includes direction = true) :
    flagOf direction &&& (entryOf registration).mask = flagOf direction := by
  rw [mask_entryOf]
  unfold toEpollEvents
  cases direction with
  | read =>
      have hreadable : registration.interests.isReadable = true := h
      rw [hreadable]
      cases registration.interests.isWritable <;> cases registration.opt.isEdge
        <;> cases registration.opt.isOneshot <;> decide
  | write =>
      have hwritable : registration.interests.isWritable = true := h
      rw [hwritable]
      cases registration.interests.isReadable <;> cases registration.opt.isEdge
        <;> cases registration.opt.isOneshot <;> decide

theorem epEventToEvent_flagOf (direction : Direction) (id : Id) :
    epEventToEvent ⟨flagOf direction, id.val⟩ = ⟨id, direction.ready⟩ := by
  have hready : (epEventToEvent ⟨flagOf direction, 0⟩).readiness = direction.ready := by
    cases direction <;> decide
  exact congrArg (Event.mk id) hready

/-! ## Entries and watches -/

/-- The entries of a table are related to the watched handles. -/
def Related (Q : Watch → EpollEvent → Prop) (watches : Watches) (table : Table) : Prop :=
  ∀ fd, Option.Rel Q (watches fd) (table.entries fd)

theorem Related.update {Q : Watch → EpollEvent → Prop} {watches : Watches} {table : Table}
    (h : Related Q watches table) (fd : RawFd) {watch : Option Watch} {entry : Option EpollEvent}
    (hfd : Option.Rel Q watch entry) :
    Related Q (Function.update watches fd watch) ⟨Function.update table.entries fd entry⟩ := by
  intro fd'
  dsimp only
  by_cases heq : fd' = fd
  · subst heq
    rw [Function.update_self, Function.update_self]
    exact hfd
  · rw [Function.update_of_ne heq, Function.update_of_ne heq]
    exact h fd'

theorem Related.isSome_eq {Q : Watch → EpollEvent → Prop} {watches : Watches} {table : Table}
    (h : Related Q watches table) (fd : RawFd) :
    (table.entries fd).isSome = (watches fd).isSome := by
  have hfd := h fd
  revert hfd
  cases watches fd <;> cases table.entries fd <;> rintro ⟨⟩ <;> rfl

theorem epollCtl_eq (epfd : RawFd) (op : CtlOp) (fd : RawFd) (event : Option EpollEvent)
    (inst : Instance) :
    epollCtl epfd op fd event inst
      = if inst.table.accepts op fd then
          (.ok (), { inst with
            table := ⟨Function.update inst.table.entries fd (Table.entry op event)⟩ })
        else (.error ⟨if op = .add then Table.eexist else Table.enoent⟩, inst) := by
  by_cases haccepts : inst.table.accepts op fd = true
  · simp [epollCtl, Kernel.epollCtl, Table.ctl, haccepts]
  · simp [epollCtl, Kernel.epollCtl, Table.ctl, haccepts]

theorem Related.ctl {Q : Watch → EpollEvent → Prop} {watches : Watches} {inst : Instance}
    (h : Related Q watches inst.table) (epfd : RawFd) {op : CtlOp} {fd : RawFd} {Allowed : Prop}
    (haccepts : inst.table.accepts op fd = true ↔ Allowed) {watch : Option Watch}
    {event : Option EpollEvent} (hentry : Option.Rel Q watch (Table.entry op event)) :
    (Allowed ∧ ∃ table, Related Q (Function.update watches fd watch) table
        ∧ epollCtl epfd op fd event inst = (.ok (), { inst with table }))
      ∨ ¬ Allowed ∧ epollCtl epfd op fd event inst
        = (.error ⟨if op = .add then Table.eexist else Table.enoent⟩, inst) := by
  rw [epollCtl_eq]
  by_cases hallowed : Allowed
  · exact Or.inl ⟨hallowed, _, h.update fd hentry, if_pos (haccepts.mpr hallowed)⟩
  · exact Or.inr ⟨hallowed, if_neg (mt haccepts.mp hallowed)⟩

/-- A request is accepted, and then changes the table as it changes the watched handles, or it is
refused and changes nothing. -/
theorem Related.request {Q : Watch → EpollEvent → Prop} {watches : Watches} {inst : Instance}
    (h : Related Q watches inst.table) (selector : Selector) {request : Request}
    (hnew : ∀ registration, request.registration = some registration →
      Q (Watch.new registration) (entryOf registration)) :
    (watches.Allows request ∧ ∃ table, Related Q (watches.apply request) table
        ∧ selector.request request inst = (.ok (), { inst with table }))
      ∨ ¬ watches.Allows request
        ∧ selector.request request inst = (.error (Watches.refusal request), inst) := by
  cases request with
  | register fd registration =>
      have haccepts : inst.table.accepts .add fd = true ↔ watches fd = none := by
        rw [Table.accepts, Option.isNone_iff_eq_none, ← Option.not_isSome_iff_eq_none,
          h.isSome_eq fd, Option.not_isSome_iff_eq_none]
      exact h.ctl selector.epfd haccepts (Option.Rel.some (hnew registration rfl))
  | reregister fd registration =>
      have haccepts : inst.table.accepts .mod fd = true ↔ (watches fd).isSome := by
        rw [Table.accepts, h.isSome_eq fd]
      exact h.ctl selector.epfd haccepts (Option.Rel.some (hnew registration rfl))
  | deregister fd =>
      have haccepts : inst.table.accepts .del fd = true ↔ (watches fd).isSome := by
        rw [Table.accepts, h.isSome_eq fd]
      exact h.ctl selector.epfd haccepts Option.Rel.none

/-! ## Reports -/

/-- Either the entry is as it was made, and so is the watch, or it is disabled. -/
inductive Shown : Watch → EpollEvent → Prop where
  | enabled (registration : Registration) :
      Shown (Watch.new registration) (entryOf registration)
  | disabled (watch : Watch) : Shown watch (entryOf watch.registration).disabled

/-- An event that respects a registration is seen from a handle that is armed. -/
theorem shows_reports {watches : Watches} {fd : RawFd} {registration : Registration}
    (hwatch : watches fd = some (Watch.new registration)) {event : Event}
    (hrespects : Respects registration event) :
    Shows Watches.Step List.singleton
      (fun after => ∃ watch, after = Function.update watches fd (some watch)
        ∧ watch.registration = registration
        ∧ (registration.opt.isOneshot = false → watch = Watch.new registration))
      watches event.reports := by
  obtain ⟨hid, hreadable, hwritable⟩ := hrespects
  let first := (Watch.new registration).fireIf event.readiness.isWritable .write
  have hfirst : first.registration = registration := Watch.registration_fireIf _ _ _
  have harmed : first.armed .read = registration.interests.isReadable :=
    Watch.armed_fireIf_of_ne (by decide) _ _
  rw [Event.reports, hid]
  refine (Watches.shows_report hwatch .write event.readiness.isWritable hwritable).bind ?_
  rintro between rfl
  have hread := Watches.shows_report (Function.update_self fd (some first) watches) .read
    event.readiness.isReadable (harmed ▸ hreadable)
  rw [hfirst] at hread
  refine hread.mono ?_
  rintro after rfl
  refine ⟨first.fireIf event.readiness.isReadable .read, Function.update_idem .., ?_, ?_⟩
  · rw [Watch.registration_fireIf, hfirst]
  · intro hrepeated
    have hnew : (Watch.new registration).registration.opt.isOneshot = false := hrepeated
    have hsame : first = Watch.new registration := Watch.fireIf_of_repeated hnew _ _
    rw [hsame]
    exact Watch.fireIf_of_repeated hnew _ _

theorem Related.report {watches : Watches} {table left : Table}
    (h : Related Shown watches table) {fd : RawFd} {bits : UInt32}
    (hurgent : bits &&& epollPri = 0) {event : EpollEvent}
    (hreport : table.report fd bits = some (event, left)) :
    Shows Watches.Step List.singleton (fun after => Related Shown after left) watches
      (epEventToEvent event).reports := by
  obtain ⟨given, hgiven, hne, rfl, rfl⟩ := report_eq_some hreport
  have hfd := h fd
  rw [hgiven] at hfd
  generalize hwatch : watches fd = watch at hfd
  cases hfd with
  | some hshown =>
    cases hshown with
    | disabled watch =>
        rw [mask_disabled, UInt32.and_zero] at hne
        exact absurd rfl hne
    | enabled registration =>
        have hevents : (bits &&& (entryOf registration).mask)
            &&& (toEpollEvents registration.interests registration.opt ||| epollErr ||| epollHup)
              = bits &&& (entryOf registration).mask := by
          rw [← mask_entryOf, UInt32.and_assoc, UInt32.and_self]
        have hrespects : Respects registration (epEventToEvent
            ⟨bits &&& (entryOf registration).mask, (entryOf registration).u64⟩) := by
          refine (respects_iff rfl hevents).mpr (Or.inr ?_)
          dsimp only
          rw [UInt32.and_assoc, UInt32.and_comm _ epollPri, ← UInt32.and_assoc, hurgent,
            UInt32.zero_and]
        refine (shows_reports hwatch hrespects).mono ?_
        rintro after ⟨watch, rfl, hregistration, hrepeated⟩
        apply h.update fd
        rw [containsFlag_entryOf_epollOneshot]
        cases honeshot : registration.opt.isOneshot with
        | true =>
            subst hregistration
            exact Option.Rel.some (.disabled watch)
        | false =>
            rw [hrepeated honeshot]
            exact Option.Rel.some (.enabled registration)

/-- What an instance delivers may be seen of the watched handles. -/
theorem Related.deliver {watches : Watches} {table : Table} (h : Related Shown watches table)
    (maxevents : Nat) {ready : List (RawFd × UInt32)}
    (hurgent : ∀ report ∈ ready, report.2 &&& epollPri = 0) :
    Shows Watches.Step List.singleton
      (fun after => Related Shown after (table.deliver maxevents ready).2.2) watches
      ((table.deliver maxevents ready).1.flatMap fun event => (epEventToEvent event).reports) := by
  induction ready generalizing table watches maxevents with
  | nil => cases maxevents <;> exact .nil h
  | cons first ready ih =>
      obtain ⟨fd, bits⟩ := first
      obtain ⟨hfirst, hrest⟩ := List.forall_mem_cons.mp hurgent
      cases maxevents with
      | zero => exact .nil h
      | succ maxevents =>
          rw [Table.deliver]
          cases hreport : table.report fd bits with
          | none => exact ih h (maxevents + 1) hrest
          | some reported =>
              dsimp only
              rw [List.flatMap_cons]
              exact (h.report hfirst hreport).bind fun between hbetween =>
                ih hbetween maxevents hrest

/-! ## Runs -/

inductive SessionLabel where
  | request (request : Request) (result : Except IoError Unit)
  /-- The events that were added to the sink. -/
  | poll (handed : List Event)
  | environment

/-- Anything may become of the handles but urgent data, and `epoll_wait` may fail. -/
inductive SessionStep (selector : Selector) : Instance → SessionLabel → Instance → Prop where
  | request (inst : Instance) (request : Request) :
      SessionStep selector inst (.request request (selector.request request inst).1)
        (selector.request request inst).2
  | poll {ES : Type} [Sink ES] (inst : Instance) (sink : ES) (timeout : Option Duration) :
      SessionStep selector inst
        (.poll (selector.select (⟨sink, []⟩ : Tap ES) timeout inst).1.log)
        (selector.select (⟨sink, []⟩ : Tap ES) timeout inst).2.1
  | environment (inst : Instance) (ready : List (RawFd × UInt32)) (waitError : Option Int32)
      (hurgent : ∀ report ∈ ready, report.2 &&& epollPri = 0) :
      SessionStep selector inst .environment { inst with ready, waitError }

def SessionLabel.observe : SessionLabel → List Observation
  | request asked result => [.request asked result]
  | poll handed => handed.flatMap Event.reports
  | environment => []

/-- What a program can see of the handles that it registers with epoll. -/
def sessionTraces (selector : Selector) : Set (List Observation) :=
  Traces (SessionStep selector) SessionLabel.observe Instance.empty

def SessionRelated (inst : Instance) (watches : Watches) : Prop :=
  Related Shown watches inst.table ∧ ∀ report ∈ inst.ready, report.2 &&& epollPri = 0

theorem SessionRelated.step {selector : Selector} {inst after : Instance} {watches : Watches}
    {label : SessionLabel} (h : SessionRelated inst watches)
    (step : SessionStep selector inst label after) :
    Shows Watches.Step List.singleton (SessionRelated after) watches label.observe := by
  obtain ⟨hrelated, hurgent⟩ := h
  cases step with
  | request _ request =>
      rcases hrelated.request selector fun registration _ => .enabled registration with
        ⟨hallows, table, htable, hrequest⟩ | ⟨hrefuses, hrequest⟩
      · rw [hrequest]
        exact .single (Watches.Step.accept watches request hallows) ⟨htable, hurgent⟩
      · rw [hrequest]
        exact .single (Watches.Step.refuse watches request hrefuses) ⟨hrelated, hurgent⟩
  | @poll ES _ _ sink timeout =>
      rw [Instance.log_select, SessionLabel.observe, List.flatMap_map,
        (Instance.select_eq selector (⟨sink, []⟩ : Tap ES) timeout inst).2]
      unfold Instance.taken Instance.afterPoll
      split
      · exact .nil ⟨hrelated, hurgent⟩
      · refine (hrelated.deliver _ hurgent).mono fun after hafter => ⟨hafter, ?_⟩
        rw [deliver_eq]
        exact fun report hmem => hurgent report (Deliveries.deliver_subset _ _ _ hmem)
  | environment _ ready waitError hready => exact .nil ⟨hrelated, hready⟩

/-! ## Watched handles on epoll -/

/-- The entry of a watch none of whose directions is armed is disabled, and other watches are as
they were made. -/
inductive ShownPlain : Watch → EpollEvent → Prop where
  | enabled (registration : Registration) (hplain : registration.Plain) :
      ShownPlain (Watch.new registration) (entryOf registration)
  | disabled (watch : Watch) (hnone : ∀ direction, watch.armed direction = false) :
      ShownPlain watch (entryOf watch.registration).disabled

/-- One report disarms a plain watch if it is a oneshot. -/
theorem ShownPlain.fire {registration : Registration} (hplain : registration.Plain)
    {direction : Direction} (harmed : registration.interests.includes direction = true) :
    ShownPlain ((Watch.new registration).fire direction)
      (if containsFlag (entryOf registration).events epollOneshot then
        (entryOf registration).disabled else entryOf registration) := by
  rw [containsFlag_entryOf_epollOneshot]
  cases honeshot : registration.opt.isOneshot with
  | false =>
      have hnew : (Watch.new registration).registration.opt.isOneshot = false := honeshot
      rw [Watch.fire_of_repeated hnew]
      exact .enabled registration hplain
  | true =>
      have hfire : (Watch.new registration).fire direction
          = ⟨registration, Function.update registration.interests.includes direction false⟩ :=
        if_pos honeshot
      rw [hfire]
      refine .disabled _ fun direction' => ?_
      by_cases heq : direction' = direction
      · subst heq
        exact Function.update_self _ _ _
      · refine (Function.update_of_ne heq _ _).trans (Bool.eq_false_iff.mpr fun hother => ?_)
        apply hplain honeshot
        cases direction <;> cases direction'
        · exact absurd rfl heq
        · exact ⟨harmed, hother⟩
        · exact ⟨hother, harmed⟩
        · exact absurd rfl heq

theorem report_of_entry {table : Table} {fd : RawFd} {given : EpollEvent}
    (hgiven : table.entries fd = some given) {bits : UInt32} (hbits : bits &&& given.mask ≠ 0) :
    table.report fd bits = some (⟨bits &&& given.mask, given.u64⟩,
      ⟨Function.update table.entries fd (some
        (if containsFlag given.events epollOneshot then given.disabled else given))⟩) := by
  rw [Table.report, hgiven]
  exact if_neg hbits

/-- One handle becomes ready in an armed direction. -/
theorem deliver_flagOf {table : Table} {fd : RawFd} {registration : Registration}
    (hgiven : table.entries fd = some (entryOf registration)) {direction : Direction}
    (harmed : registration.interests.includes direction = true) (room : Nat) :
    table.deliver (room + 1) [(fd, flagOf direction)]
      = ([⟨flagOf direction, registration.id.val⟩], [], ⟨Function.update table.entries fd (some
          (if containsFlag (entryOf registration).events epollOneshot then
            (entryOf registration).disabled else entryOf registration))⟩) := by
  have hmask := flagOf_and_mask harmed
  have hbits : flagOf direction &&& (entryOf registration).mask ≠ 0 := by
    rw [hmask]
    cases direction <;> decide
  rw [Table.deliver, report_of_entry hgiven hbits, hmask]
  cases room <;> rfl

theorem shows_ready (selector : Selector) {inst : Instance} {fd : RawFd}
    {registration : Registration} (hgiven : inst.table.entries fd = some (entryOf registration))
    {direction : Direction} (harmed : registration.interests.includes direction = true) :
    Shows (SessionStep selector) SessionLabel.observe
      (fun later => later.table = ⟨Function.update inst.table.entries fd (some
        (if containsFlag (entryOf registration).events epollOneshot then
          (entryOf registration).disabled else entryOf registration))⟩)
      inst [.report registration.id direction] := by
  let ready : Instance := { inst with ready := [(fd, flagOf direction)], waitError := none }
  have hurgent : ∀ report ∈ ready.ready, report.2 &&& epollPri = 0 := by
    rw [List.forall_mem_singleton]
    dsimp only
    cases direction <;> decide
  have hready : SessionStep selector inst .environment ready := .environment inst _ none hurgent
  have hpoll : SessionStep selector ready _ _ := .poll ready ([] : List Event) none
  have hdeliver := deliver_flagOf hgiven harmed 127
  have htaken : ready.taken (Sink.capacityLeft ([] : List Event))
      = [⟨flagOf direction, registration.id.val⟩] := congrArg Prod.fst hdeliver
  have hafter : (ready.afterPoll (Sink.capacityLeft ([] : List Event))).table = _ :=
    congrArg (fun delivered => delivered.2.2) hdeliver
  rw [Instance.log_select, htaken, (Instance.select_eq selector _ none ready).2] at hpoll
  refine ⟨_, _, (Run.single hready).snoc hpoll, ?_, hafter⟩
  rw [List.flatMap_append, List.flatMap_singleton, List.flatMap_singleton]
  change [] ++ ((epEventToEvent ⟨flagOf direction, registration.id.val⟩).reports ++ []) = _
  rw [epEventToEvent_flagOf, Direction.reports_ready, List.append_nil, List.nil_append]

theorem Related.plain_step {selector : Selector} {inst : Instance} {watches after : Watches}
    {observation : Observation} (h : Related ShownPlain watches inst.table)
    (step : Watches.Step watches observation after) (hplain : observation.Plain) :
    Shows (SessionStep selector) SessionLabel.observe
      (fun later => Related ShownPlain after later.table) inst [observation] := by
  cases step with
  | accept request hallows =>
      rcases h.request selector fun registration hasked => .enabled registration (hplain _ hasked)
        with ⟨-, table, htable, hrequest⟩ | ⟨hrefuses, -⟩
      · have step : SessionStep selector inst _ _ := .request inst request
        rw [hrequest] at step
        exact .single step htable
      · exact absurd hallows hrefuses
  | refuse request hrefuses =>
      rcases h.request selector fun registration hasked => .enabled registration (hplain _ hasked)
        with ⟨hallows, -⟩ | ⟨-, hrequest⟩
      · exact absurd hallows hrefuses
      · have step : SessionStep selector inst _ _ := .request inst request
        rw [hrequest] at step
        exact .single step h
  | report fd watch direction hwatch harmed =>
      have hfd := h fd
      rw [hwatch] at hfd
      generalize hgiven : inst.table.entries fd = given at hfd
      cases hfd with
      | some hshown =>
        cases hshown with
        | disabled _ hnone => exact absurd harmed (Bool.eq_false_iff.mp (hnone direction))
        | enabled registration henabled =>
            refine (shows_ready selector hgiven harmed).mono fun later hlater => ?_
            rw [hlater]
            exact h.update fd (Option.Rel.some (ShownPlain.fire henabled harmed))

/-- epoll shows nothing but what can be seen of the watched handles. -/
theorem sessionTraces_subset (selector : Selector) :
    sessionTraces selector ⊆ Traces Watches.Step List.singleton Watches.empty := by
  refine all_traces_subset SessionRelated ?_ ?_
  · exact ⟨fun fd => Option.Rel.none, nofun⟩
  · exact fun inst watches label after h step => h.step step

/-- Unless a oneshot is for both directions, epoll shows all that can be seen of them. -/
theorem subset_sessionTraces (selector : Selector) :
    {trace ∈ Traces Watches.Step List.singleton Watches.empty | ∀ o ∈ trace, o.Plain}
      ⊆ sessionTraces selector := by
  refine traces_subset (fun watches inst => Related ShownPlain watches inst.table) ?_ ?_
  · exact fun fd => Option.Rel.none
  · exact fun watches inst observation after h step hplain =>
      h.plain_step step (hplain observation (List.mem_singleton_self observation))

end Gaea.Sys.Epoll
