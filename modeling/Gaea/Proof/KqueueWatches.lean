import Gaea.Proof.EpollWatches
import Gaea.Proof.KqueueRefinement

/-!
# A kqueue watches handles

The filters of a kqueue are the armed directions of the watched handles. So the kqueue shows what
the watched handles do where no request is refused, and the two selectors can be told apart only by
refused requests and by oneshots for both directions.
-/

namespace Gaea.Sys.Kqueue

open Transition

def filterOf : Direction → Filter
  | .read => .read
  | .write => .write

theorem wanted_filterOf (interests : Interests) (direction : Direction) :
    wanted interests (filterOf direction) = interests.includes direction := by
  cases direction <;> rfl

def keyOf (fd : RawFd) (direction : Direction) : Key := (identOf fd, filterOf direction)

theorem keyOf_injective {fd fd' : RawFd} {direction direction' : Direction}
    (h : keyOf fd direction = keyOf fd' direction') : fd = fd' ∧ direction = direction' := by
  obtain ⟨hident, hfilter⟩ := Prod.mk.inj h
  refine ⟨identOf_injective hident, ?_⟩
  cases direction <;> cases direction' <;> first | rfl | cases hfilter

def armedKnote (watch : Watch) (direction : Direction) : Option Knote :=
  if watch.armed direction then some (knoteOf watch.registration) else none

/-- There is a filter for each armed direction, and no other filter. -/
structure Related (watches : Watches) (kqueue : KernelQueue) : Prop where
  knotes : ∀ fd direction, kqueue.knotes (keyOf fd direction)
    = (watches fd).bind fun watch => armedKnote watch direction
  others : ∀ key knote, kqueue.knotes key = some knote → ∃ fd direction, key = keyOf fd direction

variable {watches : Watches} {kqueue : KernelQueue}

/-! ## Reports -/

theorem flags_knoteOf (registration : Registration) :
    containsFlag (knoteOf registration).flags evError = false
      ∧ containsFlag (knoteOf registration).flags evEof = false := by
  change containsFlag (optToFlags registration.opt ||| evAdd) evError = false
    ∧ containsFlag (optToFlags registration.opt ||| evAdd) evEof = false
  unfold optToFlags
  cases registration.opt.isEdge <;> cases registration.opt.isOneshot <;> decide

theorem keventToEvent_knoteOf (fd : RawFd) (direction : Direction) (registration : Registration) :
    keventToEvent ((knoteOf registration).kevent (keyOf fd direction))
      = ⟨registration.id, direction.ready⟩ := by
  obtain ⟨herror, heof⟩ := flags_knoteOf registration
  simp only [keventToEvent, Knote.kevent, keyOf, herror, heof, Bool.false_eq_true, if_false]
  cases direction <;> rfl

theorem reports_keventToEvent (fd : RawFd) (direction : Direction) (registration : Registration) :
    (keventToEvent ((knoteOf registration).kevent (keyOf fd direction))).reports
      = [.report registration.id direction] := by
  rw [keventToEvent_knoteOf, Direction.reports_ready]

theorem Related.fire (h : Related watches kqueue) {fd : RawFd} {watch : Watch}
    (hwatch : watches fd = some watch) (direction : Direction) :
    Related (Function.update watches fd (some (watch.fire direction)))
      (if (knoteOf watch.registration).isOneshot then kqueue.setKnote (keyOf fd direction) none
        else kqueue) := by
  rw [isOneshot_knoteOf]
  cases honeshot : watch.registration.opt.isOneshot with
  | false =>
      rw [Watch.fire_of_repeated honeshot, ← hwatch, Function.update_eq_self]
      exact h
  | true =>
      have hfire : watch.fire direction
          = { watch with armed := Function.update watch.armed direction false } := if_pos honeshot
      rw [hfire, if_pos rfl]
      constructor
      · intro fd' direction'
        by_cases heq : keyOf fd' direction' = keyOf fd direction
        · obtain ⟨rfl, rfl⟩ := keyOf_injective heq
          simp [KernelQueue.setKnote, armedKnote]
        · rw [KernelQueue.knotes_setKnote_of_ne heq, h.knotes]
          by_cases hfd : fd' = fd
          · subst hfd
            have hdirection : direction' ≠ direction := fun hdirection => heq (hdirection ▸ rfl)
            rw [hwatch, Function.update_self]
            simp [armedKnote, Function.update_of_ne hdirection]
          · rw [Function.update_of_ne hfd]
      · intro key knote hknote
        by_cases heq : key = keyOf fd direction
        · exact ⟨fd, direction, heq⟩
        · rw [KernelQueue.knotes_setKnote_of_ne heq] at hknote
          exact h.others key knote hknote

theorem map_registration_fire {fd : RawFd} {watch : Watch} (hwatch : watches fd = some watch)
    (direction : Direction) (fd' : RawFd) :
    (Function.update watches fd (some (watch.fire direction)) fd').map Watch.registration
      = (watches fd').map Watch.registration := by
  by_cases heq : fd' = fd
  · rw [heq, Function.update_self, hwatch]
    exact congrArg some (watch.registration_fireIf true direction)
  · rw [Function.update_of_ne heq]

theorem Related.shows_report (h : Related watches kqueue) {fd : RawFd} {watch : Watch}
    (hwatch : watches fd = some watch) {direction : Direction}
    (harmed : watch.armed direction = true) :
    Shows Watches.Step List.singleton
      (fun after => Related after
        (if (knoteOf watch.registration).isOneshot then kqueue.setKnote (keyOf fd direction) none
          else kqueue)
        ∧ ∀ fd, (after fd).map Watch.registration = (watches fd).map Watch.registration)
      watches
      (keventToEvent ((knoteOf watch.registration).kevent (keyOf fd direction))).reports := by
  rw [reports_keventToEvent]
  exact .single (Watches.Step.report watches fd watch direction hwatch harmed)
    ⟨h.fire hwatch direction, map_registration_fire hwatch direction⟩

/-- A filter belongs to an armed direction. -/
theorem Related.exists_armed (h : Related watches kqueue) {key : Key} {knote : Knote}
    (hknote : kqueue.knotes key = some knote) :
    ∃ fd direction watch, key = keyOf fd direction ∧ watches fd = some watch
      ∧ watch.armed direction = true ∧ knote = knoteOf watch.registration := by
  obtain ⟨fd, direction, rfl⟩ := h.others key knote hknote
  rw [h.knotes, Option.bind_eq_some_iff] at hknote
  obtain ⟨watch, hwatch, hknote⟩ := hknote
  obtain ⟨harmed, heq⟩ := Option.ite_none_right_eq_some.mp hknote
  exact ⟨fd, direction, watch, rfl, hwatch, harmed, (Option.some.inj heq).symm⟩

/-- What a kqueue delivers can be seen of the watched handles. -/
theorem Related.deliver (h : Related watches kqueue) (nevents : Nat) (active : List Key) :
    Shows Watches.Step List.singleton
      (fun after => Related after (kqueue.deliver nevents active).2
        ∧ ∀ fd, (after fd).map Watch.registration = (watches fd).map Watch.registration)
      watches
      ((kqueue.deliver nevents active).1.flatMap fun event => (keventToEvent event).reports) := by
  induction active generalizing watches kqueue nevents with
  | nil => cases nevents <;> exact .nil ⟨⟨h.knotes, h.others⟩, fun _ => rfl⟩
  | cons first active ih =>
      cases nevents with
      | zero => exact .nil ⟨⟨h.knotes, h.others⟩, fun _ => rfl⟩
      | succ nevents =>
          rw [KernelQueue.deliver]
          cases hknote : kqueue.knotes first with
          | none => exact ih h (nevents + 1)
          | some knote =>
              obtain ⟨fd, direction, watch, rfl, hwatch, harmed, rfl⟩ := h.exists_armed hknote
              dsimp only
              rw [List.flatMap_cons]
              refine (h.shows_report hwatch harmed).bind fun between hbetween => ?_
              refine (ih hbetween.1 nevents).mono fun after hafter => ⟨hafter.1, fun fd' => ?_⟩
              exact (hafter.2 fd').trans (hbetween.2 fd')

/-! ## Runs -/

def Label.observe : Label → List Observation
  | request asked result => [.request asked result]
  | poll _ handed => handed.flatMap Event.reports
  | environment => []

/-- What a program can see of the handles that it registers with a kqueue. -/
def orderlyTraces (selector : Selector) : Set (List Observation) :=
  Traces (OrderlyStep selector) Label.observe System.new

/-- Only those requests are made that no system refuses. -/
theorem allowed_iff {registrations : Registrations}
    (h : ∀ fd, registrations fd = (watches fd).map Watch.registration) (request : Request) :
    Allowed registrations request ↔ watches.Allows request := by
  cases request with
  | register fd registration =>
      change registrations fd = none ↔ watches fd = none
      rw [h, Option.map_eq_none_iff]
  | reregister fd _ | deregister fd =>
      change (registrations fd).isSome ↔ (watches fd).isSome
      rw [h, Option.isSome_map]

structure SystemRelated (s : System) (watches : Watches) : Prop where
  faultless : Faultless s.kernel
  registrations : ∀ fd, s.registrations fd = (watches fd).map Watch.registration
  related : Related watches s.kernel

/-- A filter of another kind than those of the directions is never there. -/
theorem Related.knotes_of_ne (h : Related watches kqueue) (ident : UInt64) {filter : Filter}
    (hne : ∀ direction, filter ≠ filterOf direction) : kqueue.knotes (ident, filter) = none := by
  rw [Option.eq_none_iff_forall_ne_some]
  intro knote hknote
  obtain ⟨fd, direction, heq⟩ := h.others _ knote hknote
  exact hne direction (Prod.mk.inj heq).2

theorem filterOf_mem (direction : Direction) : filterOf direction ∈ [Filter.write, .read] := by
  cases direction <;> decide

theorem filtersOf_subset (request : Request) : filtersOf request ⊆ [.write, .read] := by
  cases request with
  | register fd registration => exact List.filter_subset_self _
  | reregister fd registration | deregister fd => exact List.Subset.refl _

theorem eq_filterOf_or_ne (filter : Filter) :
    (∃ direction, filter = filterOf direction) ∨ ∀ direction, filter ≠ filterOf direction := by
  cases filter with
  | read => exact Or.inl ⟨.read, rfl⟩
  | write => exact Or.inl ⟨.write, rfl⟩
  | signal | user => exact Or.inr fun direction => by cases direction <;> exact nofun

/-- A request leaves those filters out that are not there. -/
theorem Related.knotes_of_notMem (h : Related watches kqueue) {request : Request}
    (hallows : watches.Allows request) {filter : Filter} (hmem : filter ∉ filtersOf request) :
    kqueue.knotes (identOf (fdOf request), filter) = none := by
  rcases eq_filterOf_or_ne filter with ⟨direction, rfl⟩ | hne
  · cases request with
    | register fd registration =>
        have hnone : watches fd = none := hallows
        exact (h.knotes fd direction).trans (by rw [hnone]; rfl)
    | reregister fd registration | deregister fd => exact absurd (filterOf_mem direction) hmem
  · exact h.knotes_of_ne _ hne

theorem asked_filterOf (watches : Watches) (request : Request) (direction : Direction) :
    asked request (filterOf direction)
      = (watches.apply request (fdOf request)).bind fun watch => armedKnote watch direction := by
  cases request with
  | register fd registration | reregister fd registration =>
      rw [asked, wanted_filterOf, Watches.apply, fdOf, Function.update_self]
      rfl
  | deregister fd =>
      rw [asked, Watches.apply, fdOf, Function.update_self]
      rfl

theorem apply_of_ne {fd : RawFd} {request : Request} (hfd : fd ≠ fdOf request)
    (watches : Watches) : watches.apply request fd = watches fd := by
  cases request with
  | register fd' registration | reregister fd' registration | deregister fd' =>
      exact Function.update_of_ne hfd _ _

theorem Related.request (h : Related watches kqueue) (hfaultless : Faultless kqueue)
    (selector : Selector) {request : Request} (hallows : watches.Allows request) :
    Related (watches.apply request) (selector.request request kqueue).2 := by
  have hasked := knotes_request hfaultless selector fun filter hmem =>
    h.knotes_of_notMem hallows hmem
  constructor
  · intro fd direction
    by_cases hfd : fd = fdOf request
    · rw [hfd, keyOf, hasked, asked_filterOf watches]
    · rw [keyOf, knotes_request_of_ne hfd, apply_of_ne hfd]
      exact h.knotes fd direction
  · rintro ⟨ident, filter⟩ knote hknote
    by_cases hident : ident = identOf (fdOf request)
    · rcases eq_filterOf_or_ne filter with ⟨direction, rfl⟩ | hne
      · exact ⟨fdOf request, direction, Prod.ext hident rfl⟩
      · have hmem : filter ∉ filtersOf request := by
          intro hmem
          rcases List.mem_pair.mp (filtersOf_subset request hmem) with heq | heq
          · exact hne .write heq
          · exact hne .read heq
        rw [hident, hasked, asked_of_notMem hmem] at hknote
        cases hknote
    · rw [knotes_request_unchanged (fun filter _ heq => hident (Prod.mk.inj heq).1.symm)] at hknote
      exact h.others _ knote hknote

theorem SystemRelated.request {s : System} (h : SystemRelated s watches) (selector : Selector)
    {request : Request} (hallows : watches.Allows request) :
    SystemRelated ⟨(selector.request request s.kernel).2, s.registrations.apply request,
      System.remember s.last request⟩ (watches.apply request) := by
  refine ⟨faultless_request h.faultless selector request, fun fd => ?_,
    h.related.request h.faultless selector hallows⟩
  have hregistrations := h.registrations fd
  cases request with
  | register fd' registration | reregister fd' registration | deregister fd' =>
      dsimp only
      by_cases hfd : fd = fd'
      · subst hfd
        rw [Registrations.apply, Watches.apply, Function.update_self, Function.update_self]
        rfl
      · rw [Registrations.apply, Watches.apply, Function.update_of_ne hfd,
          Function.update_of_ne hfd]
        exact hregistrations

theorem select_world {ES : Type} [Sink ES] (selector : Selector) (sink : ES)
    (timeout : Option Duration) (hcall : kqueue.callError = none) :
    (selector.select sink timeout kqueue).2.1
      = (kqueue.deliver ((Sink.capacityLeft sink).min eventsCap) kqueue.active).2 := by
  have hkevent (nevents : Nat) : (kqueue.kevent [] nevents).2
      = (kqueue.deliver nevents kqueue.active).2 := by
    simp only [KernelQueue.kevent, hcall]
    rfl
  rw [← hkevent, Selector.select]
  split
  · rfl
  · split <;> rfl

theorem SystemRelated.step {selector : Selector} {s t : System} {label : Label}
    (h : SystemRelated s watches) (step : OrderlyStep selector s label t) :
    Shows Watches.Step List.singleton (SystemRelated t) watches label.observe := by
  obtain ⟨step, hfaultless, hallowed⟩ := step
  cases step with
  | request _ request =>
      have hallows := (allowed_iff h.registrations request).mp (hallowed request _ rfl)
      have hafter := h.request selector hallows
      have hok := request_ok h.faultless selector request
      rw [System.after, hok]
      exact .single (Watches.Step.accept watches request hallows) hafter
  | @poll ES _ _ sink timeout =>
      have hcall := h.faultless.1
      rw [log_select, Label.observe, List.flatMap_map, taken, hcall]
      refine (h.related.deliver ((Sink.capacityLeft sink).min eventsCap) s.kernel.active).mono ?_
      rintro after ⟨hafter, hsame⟩
      have hworld : (selector.select (⟨sink, []⟩ : Tap ES) timeout s.kernel).2.1
          = (s.kernel.deliver ((Sink.capacityLeft sink).min eventsCap) s.kernel.active).2 :=
        select_world selector _ timeout hcall
      rw [← hworld] at hafter
      exact ⟨hfaultless, fun fd => (h.registrations fd).trans (hsame fd).symm, hafter⟩
  | environment _ kernel hknotes =>
      refine .nil ⟨hfaultless, h.registrations, ?_⟩
      constructor
      · rw [hknotes]
        exact h.related.knotes
      · rw [hknotes]
        exact h.related.others

theorem deliver_keyOf {fd : RawFd} {direction : Direction} {knote : Knote}
    (hknote : kqueue.knotes (keyOf fd direction) = some knote) (nevents : Nat) :
    kqueue.deliver (nevents + 1) [keyOf fd direction]
      = ([knote.kevent (keyOf fd direction)],
        { (if knote.isOneshot then kqueue.setKnote (keyOf fd direction) none else kqueue) with
          active := [] }) := by
  rw [KernelQueue.deliver, hknote]
  cases nevents <;> rfl

/-- A handle becomes ready in an armed direction. -/
theorem SystemRelated.shows_ready {s : System} (h : SystemRelated s watches) (selector : Selector)
    {fd : RawFd} {watch : Watch} (hwatch : watches fd = some watch) {direction : Direction}
    (harmed : watch.armed direction = true) :
    Shows (OrderlyStep selector) Label.observe
      (fun t => SystemRelated t (Function.update watches fd (some (watch.fire direction)))) s
      [.report watch.registration.id direction] := by
  let ready : System := { s with kernel := { s.kernel with active := [keyOf fd direction] } }
  have hknote : ready.kernel.knotes (keyOf fd direction) = some (knoteOf watch.registration) := by
    refine (h.related.knotes fd direction).trans ?_
    rw [hwatch]
    exact if_pos harmed
  let left := if (knoteOf watch.registration).isOneshot then
      ready.kernel.setKnote (keyOf fd direction) none
    else ready.kernel
  let event := (knoteOf watch.registration).kevent (keyOf fd direction)
  have hdeliver : ready.kernel.deliver eventsCap ready.kernel.active
      = ([event], { left with active := [] }) := deliver_keyOf hknote 127
  have hcall : ready.kernel.callError = none := h.faultless.1
  have htaken : taken ready.kernel ([] : List Event) = [event] := by
    rw [taken, hcall]
    exact congrArg Prod.fst hdeliver
  have hworld : (selector.select (⟨[], []⟩ : Tap (List Event)) none ready.kernel).2.1
      = { left with active := [] } :=
    (select_world selector _ none hcall).trans (congrArg Prod.snd hdeliver)
  have hfaultless : Faultless { left with active := [] } := by
    unfold left
    split <;> exact h.faultless
  have hrelated : Related watches ready.kernel := ⟨h.related.knotes, h.related.others⟩
  have hfired := hrelated.fire hwatch direction
  have hready : OrderlyStep selector s .environment ready := by
    refine ⟨.environment s _ rfl, h.faultless, fun request result heq => ?_⟩
    cases heq
  have hpoll : Step selector ready _ _ := .poll ready ([] : List Event) none
  rw [log_select, htaken, hworld] at hpoll
  have hallowed (request : Request) (result : Except IoError Unit)
      (heq : Label.poll [event] [keventToEvent event] = .request request result) :
      Allowed ready.registrations request := by cases heq
  refine ⟨_, _, (Run.single hready).snoc ⟨hpoll, hfaultless, hallowed⟩, ?_, hfaultless,
    fun fd' => ?_, hfired.knotes, hfired.others⟩
  · rw [List.flatMap_append, List.flatMap_singleton, List.flatMap_singleton]
    change [] ++ ((keventToEvent event).reports ++ []) = _
    rw [reports_keventToEvent, List.append_nil, List.nil_append]
  · exact (h.registrations fd').trans (map_registration_fire hwatch direction fd').symm

theorem SystemRelated.accepted_step {selector : Selector} {s : System} {watches after : Watches}
    {observation : Observation} (h : SystemRelated s watches)
    (step : Watches.Step watches observation after) (haccepted : observation.Accepted) :
    Shows (OrderlyStep selector) Label.observe (fun t => SystemRelated t after) s
      [observation] := by
  cases step with
  | accept request hallows =>
      exact .single (orderlyStep_request h.faultless
        ((allowed_iff h.registrations request).mpr hallows)) (h.request selector hallows)
  | refuse request hrefuses => cases haccepted
  | report fd watch direction hwatch harmed => exact h.shows_ready selector hwatch harmed

theorem systemRelated_new : SystemRelated System.new Watches.empty where
  faultless := ⟨rfl, fun _ => rfl⟩
  registrations _ := rfl
  related := ⟨fun _ _ => rfl, nofun⟩

theorem orderlyTraces_subset (selector : Selector) :
    orderlyTraces selector ⊆ Traces Watches.Step List.singleton Watches.empty :=
  all_traces_subset SystemRelated systemRelated_new fun _ _ _ _ h step => h.step step

/-- Where no request is refused, a kqueue shows all that can be seen of the watched handles. -/
theorem subset_orderlyTraces (selector : Selector) :
    {trace ∈ Traces Watches.Step List.singleton Watches.empty | ∀ o ∈ trace, o.Accepted}
      ⊆ orderlyTraces selector :=
  traces_subset (fun watches s => SystemRelated s watches) systemRelated_new
    fun _ _ observation _ h step haccepted =>
      h.accepted_step step (haccepted observation (List.mem_singleton_self observation))

/-- **The two selectors show the same** to a program that registers only handles that are not
registered, and reregisters and deregisters only those that are, on systems where adding a filter
again overwrites it (`Kevent.added`). What it sees of its handles on epoll, where none of its requests
is refused, it can also see on kqueue. What it sees on kqueue it can also see on epoll, unless it
registers a handle as a oneshot for both directions. -/
theorem selectors_agree (epoll : Epoll.Selector) (kqueue : Selector) :
    {trace ∈ Epoll.sessionTraces epoll | ∀ o ∈ trace, o.Accepted} ⊆ orderlyTraces kqueue
      ∧ {trace ∈ orderlyTraces kqueue | ∀ o ∈ trace, o.Plain} ⊆ Epoll.sessionTraces epoll := by
  constructor
  · rintro trace ⟨htrace, haccepted⟩
    exact subset_orderlyTraces kqueue ⟨Epoll.sessionTraces_subset epoll htrace, haccepted⟩
  · rintro trace ⟨htrace, hplain⟩
    exact Epoll.subset_sessionTraces epoll ⟨orderlyTraces_subset kqueue htrace, hplain⟩

end Gaea.Sys.Kqueue
