import Gaea.Proof.KqueueRun

/-!
# The kqueue refines the map of registrations

A registered handle has one entry for each of its interests, less those that have fired under
`ONESHOT`, and every entry is the one its last registration asks for. The kernel does not fail, and
users keep to the rule that only registered handles are re-registered or deregistered, and only
others registered.
-/

namespace Gaea.Sys.Kqueue

open Transition

def Faultless (kqueue : KernelQueue) : Prop :=
  kqueue.callError = none ∧ ∀ change, kqueue.refuse change = none

def Allowed (registrations : Registrations) : Request → Prop
  | .register fd _ => registrations fd = none
  | .reregister fd _ | .deregister fd => (registrations fd).isSome

def OrderlyStep (selector : Selector) (s : System) (label : Label) (t : System) : Prop :=
  Step selector s label t ∧ Faultless t.kernel
    ∧ ∀ request result, label = .request request result → Allowed s.registrations request

def Live (registration : Registration) (filter : Filter) (fired : Nat) : Prop :=
  wanted registration.interests filter = true
    ∧ ¬ (registration.opt.isOneshot = true ∧ 0 < fired)

instance (registration : Registration) (filter : Filter) (fired : Nat) :
    Decidable (Live registration filter fired) :=
  inferInstanceAs (Decidable (_ ∧ ¬ (_ ∧ _)))

def expected (registration : Option Registration) (filter : Filter) (fired : Nat) : Option Knote :=
  registration.bind fun registration =>
    if Live registration filter fired then some (knoteOf registration) else none

/-- The entries of a kqueue are those that the map of registrations asks for. -/
def Simulates (labels : List Label) (s : System) : Prop :=
  ∀ fd filter, s.kernel.knotes (identOf fd, filter)
    = expected (s.registrations fd) filter (firingsSince fd filter labels)

/-! ## Requests -/

theorem request_ok {kqueue : KernelQueue} (hfaultless : Faultless kqueue) (selector : Selector)
    (request : Request) : (selector.request request kqueue).1 = .ok () := by
  apply (served_request hfaultless.1 selector request).ok_iff.mpr
  intro filter hmem
  have herror : kqueue.errorOf (changeOf request filter)
      = if containsFlag (changeOf request filter).flags evAdd
          || (kqueue.knotes (changeOf request filter).key).isSome then 0 else enoent := by
    rw [KernelQueue.errorOf, hfaultless.2]
  have hmissing : kqueue.errorOf (changeOf request filter) = 0
      ∨ kqueue.errorOf (changeOf request filter) ∈ [enoent] := by
    rw [herror, List.mem_singleton]
    split
    · exact Or.inl rfl
    · exact Or.inr rfl
  cases request with
  | register fd registration =>
      have hadd : containsFlag (changeOf (.register fd registration) filter).flags evAdd
          = wanted registration.interests filter :=
        (containsFlag_optToFlags registration.opt (wanted registration.interests filter)).2.1
      rw [herror, hadd, wanted_of_mem_filtersOf_register hmem]
      exact Or.inl rfl
  | reregister fd registration => exact hmissing
  | deregister fd => exact hmissing

theorem wanted_of_notMem (interests : Interests) {filter : Filter}
    (hmem : filter ∉ [Filter.write, .read]) : wanted interests filter = false := by
  cases filter with
  | read => exact absurd (by simp) hmem
  | write => exact absurd (by simp) hmem
  | signal => rfl
  | user => rfl

theorem asked_of_notMem {request : Request} {filter : Filter} (hmem : filter ∉ filtersOf request) :
    asked request filter = none := by
  cases request with
  | register fd registration =>
      have hnot : wanted registration.interests filter = false := by
        by_cases hpair : filter ∈ [Filter.write, .read]
        · exact eq_false_of_ne_true fun h => hmem (List.mem_filter.mpr ⟨hpair, h⟩)
        · exact wanted_of_notMem registration.interests hpair
      rw [asked, hnot]
      rfl
  | reregister fd registration =>
      rw [asked, wanted_of_notMem registration.interests hmem]
      rfl
  | deregister fd => rfl

/-- After a request every filter of its handle is as the request asks. -/
theorem knotes_request {kqueue : KernelQueue} (hfaultless : Faultless kqueue) (selector : Selector)
    {request : Request} (hnone : ∀ filter, filter ∉ filtersOf request →
      kqueue.knotes (identOf (fdOf request), filter) = none) (filter : Filter) :
    (selector.request request kqueue).2.knotes (identOf (fdOf request), filter)
      = asked request filter := by
  by_cases hmem : filter ∈ filtersOf request
  · rw [(served_request hfaultless.1 selector request).changed filter hmem, hfaultless.2]
    rfl
  · rw [asked_of_notMem hmem, ← hnone filter hmem]
    exact knotes_request_of_notMem hmem selector

theorem faultless_request {kqueue : KernelQueue} (hfaultless : Faultless kqueue)
    (selector : Selector) (request : Request) :
    Faultless (selector.request request kqueue).2 := by
  rw [(served_request hfaultless.1 selector request).rest]
  exact hfaultless

/-- Any request that is allowed can be made. -/
theorem orderlyStep_request {selector : Selector} {s : System} (hfaultless : Faultless s.kernel)
    {request : Request} (hallowed : Allowed s.registrations request) :
    OrderlyStep selector s (.request request (.ok ()))
      ⟨(selector.request request s.kernel).2, s.registrations.apply request,
        System.remember s.last request⟩ := by
  have step : Step selector s _ _ := Step.request s request
  rw [System.after, request_ok hfaultless selector request] at step
  refine ⟨step, faultless_request hfaultless selector request, ?_⟩
  intro request' result heq
  obtain ⟨rfl, -⟩ := Label.request.inj heq
  exact hallowed

/-! ## Runs -/

theorem expected_request (registrations : Registrations) (request : Request) (filter : Filter) :
    expected (registrations.apply request (fdOf request)) filter 0 = asked request filter := by
  cases request with
  | register fd registration => simp [expected, Registrations.apply, fdOf, asked, Live]
  | reregister fd registration => simp [expected, Registrations.apply, fdOf, asked, Live]
  | deregister fd => simp [expected, Registrations.apply, fdOf, asked]

theorem expected_of_notMem (registration : Option Registration) {filter : Filter}
    (hmem : filter ∉ [Filter.write, .read]) (fired : Nat) :
    expected registration filter fired = none := by
  cases registration with
  | none => rfl
  | some registration => simp [expected, Live, wanted_of_notMem registration.interests hmem]

/-- Where a request does not change a filter, there is no entry to change. -/
theorem expected_of_allowed {registrations : Registrations} {request : Request}
    (hallowed : Allowed registrations request) {filter : Filter}
    (hmem : filter ∉ filtersOf request) (fired : Nat) :
    expected (registrations (fdOf request)) filter fired = none := by
  cases request with
  | register fd registration =>
      have hnone : registrations fd = none := hallowed
      rw [fdOf, hnone]
      rfl
  | reregister fd registration => exact expected_of_notMem _ hmem fired
  | deregister fd => exact expected_of_notMem _ hmem fired

/-- Deliveries take away exactly the entries that have fired under `ONESHOT`. -/
theorem Fired.expected {registration : Option Registration} {filter : Filter} {fired n : Nat}
    {after : Option Knote} (h : Fired (expected registration filter fired) n after) :
    after = Kqueue.expected registration filter (fired + n) := by
  cases registration with
  | none =>
      generalize hnone : Kqueue.expected none filter fired = knote at h
      cases h with
      | quiet => exact hnone.symm
      | oneshot => cases hnone
      | repeated => cases hnone
  | some registration =>
      by_cases hlive : Live registration filter fired
      · have hknote : Kqueue.expected (some registration) filter fired
            = some (knoteOf registration) := if_pos hlive
        rw [hknote] at h
        cases h with
        | quiet => exact hknote.symm
        | oneshot _ honeshot =>
            rw [isOneshot_knoteOf] at honeshot
            have hgone : ¬ Live registration filter (fired + 1) :=
              fun hlive => hlive.2 ⟨honeshot, Nat.succ_pos fired⟩
            exact (if_neg hgone).symm
        | repeated _ n honeshot =>
            rw [isOneshot_knoteOf] at honeshot
            have hstill : Live registration filter (fired + n) :=
              ⟨hlive.1, fun h => by rw [honeshot] at h; cases h.1⟩
            exact (if_pos hstill).symm
      · have hnone : Kqueue.expected (some registration) filter fired = none := if_neg hlive
        rw [hnone] at h
        cases h with
        | quiet => exact hnone.symm

theorem Simulates.request {selector : Selector} {labels : List Label} {s : System}
    (h : Simulates labels s) (hfaultless : Faultless s.kernel) {request : Request}
    (hallowed : Allowed s.registrations request) :
    Simulates (labels ++ [.request request (selector.request request s.kernel).1])
      (s.after request (selector.request request s.kernel)) := by
  have hok := request_ok hfaultless selector request
  intro fd filter
  simp only [System.after, hok]
  by_cases hfd : fd = fdOf request
  · subst hfd
    rw [knotes_request hfaultless selector
      (fun filter hmem => (h _ _).trans (expected_of_allowed hallowed hmem _))]
    cases request with
    | register fd registration =>
        rw [firingsSince_of_registers labels (Label.registers_register fd registration),
          expected_request]
    | reregister fd registration =>
        rw [firingsSince_of_registers labels (Label.registers_reregister fd registration),
          expected_request]
    | deregister fd => simp [asked, expected, Registrations.apply, fdOf]
  · have hregisters := Label.registers_of_ne hfd (.ok ())
    have hsame : s.registrations.apply request fd = s.registrations fd := by
      cases request with
      | register fd' registration | reregister fd' registration | deregister fd' =>
          exact Function.update_of_ne hfd _ _
    rw [knotes_request_of_ne hfd, firingsSince_snoc labels hregisters, hsame, h fd filter]
    rfl

theorem Simulates.step {selector : Selector} {labels : List Label} {s t : System} {label : Label}
    (h : Simulates labels s) (hfaultless : Faultless s.kernel)
    (step : OrderlyStep selector s label t) : Simulates (labels ++ [label]) t := by
  obtain ⟨step, -, hallowed⟩ := step
  cases step with
  | request _ request => exact h.request hfaultless (hallowed request _ rfl)
  | poll _ sink timeout =>
      intro fd filter
      have hfired :=
        (select_spec selector s.kernel (⟨sink, []⟩ : Tap _) timeout).2 (identOf fd, filter)
      rw [h fd filter] at hfired
      rw [firingsSince_snoc labels rfl, hfired.expected]
      rfl
  | environment _ kernel hknotes =>
      intro fd filter
      rw [firingsSince_snoc labels rfl, hknotes, h fd filter]
      rfl

theorem simulates_of_run {selector : Selector} {labels : List Label} {s : System}
    (run : Run (OrderlyStep selector) System.new labels s) :
    Faultless s.kernel ∧ Simulates labels s := by
  apply run.invariant (I := fun labels s => Faultless s.kernel ∧ Simulates labels s)
  · exact ⟨⟨rfl, fun _ => rfl⟩, fun _ _ => rfl⟩
  · intro labels s label t h step
    exact ⟨step.2.1, h.2.step h.1 step⟩

/-- What a reachable kqueue is, seen from the map of registrations. -/
structure Refines (labels : List Label) (s : System) : Prop where
  ok : ∀ request result, .request request result ∈ labels → result = .ok ()
  handed : ∀ delivered handed, .poll delivered handed ∈ labels →
    handed = delivered.map keventToEvent
  unregistered : ∀ fd filter,
    s.registrations fd = none → s.kernel.knotes (identOf fd, filter) = none
  /-- A filter has an entry when there is an interest in it, unless it was registered as a oneshot
  and has fired since. -/
  isSome_iff : ∀ fd registration filter, s.registrations fd = some registration →
    ((s.kernel.knotes (identOf fd, filter)).isSome ↔ wanted registration.interests filter
      ∧ ¬ (registration.opt.isOneshot = true ∧ 0 < firingsSince fd filter labels))
  entry : ∀ fd registration filter knote, s.registrations fd = some registration →
    s.kernel.knotes (identOf fd, filter) = some knote →
    knote.udata = registration.id.val ∧ knote.isOneshot = registration.opt.isOneshot
      ∧ containsFlag knote.flags evClear = registration.opt.isEdge

theorem Simulates.refines {labels : List Label} {s : System} (h : Simulates labels s)
    (hok : ∀ request result, .request request result ∈ labels → result = .ok ())
    (hhanded : ∀ delivered handed, .poll delivered handed ∈ labels →
      handed = delivered.map keventToEvent) : Refines labels s := by
  constructor
  · exact hok
  · exact hhanded
  · intro fd filter hnone
    rw [h, hnone]
    rfl
  · intro fd registration filter hsome
    rw [h, hsome]
    by_cases hlive : Live registration filter (firingsSince fd filter labels)
    · have hentry : expected (some registration) filter (firingsSince fd filter labels)
          = some (knoteOf registration) := if_pos hlive
      rw [hentry]
      exact iff_of_true rfl hlive
    · have hentry : expected (some registration) filter (firingsSince fd filter labels) = none :=
        if_neg hlive
      rw [hentry]
      exact iff_of_false Bool.false_ne_true hlive
  · intro fd registration filter knote hsome hknote
    rw [h, hsome] at hknote
    obtain ⟨-, hentry⟩ := Option.ite_none_right_eq_some.mp hknote
    obtain rfl := Option.some.inj hentry
    exact ⟨rfl, isOneshot_knoteOf registration, containsFlag_knoteOf_evClear registration⟩

/-- **The kqueue refines the map of registrations.** No request fails, every event that is delivered
is handed on, every entry is as the last registration of its handle asks, and a request does not
touch the entries of other handles. -/
theorem kqueue_refines {selector : Selector} {labels : List Label} {s : System}
    (run : Run (OrderlyStep selector) System.new labels s) :
    Refines labels s ∧ ∀ request result t, OrderlyStep selector s (.request request result) t →
      ∀ fd filter, fd ≠ fdOf request →
        t.kernel.knotes (identOf fd, filter) = s.kernel.knotes (identOf fd, filter) := by
  refine ⟨(simulates_of_run run).2.refines ?_ ?_, ?_⟩
  · intro request result hmem
    obtain ⟨before, after, rfl⟩ := List.append_of_mem hmem
    obtain ⟨t, u, hbefore, step⟩ := run.before_step
    cases step.1 with
    | request => exact request_ok (simulates_of_run hbefore).1 selector request
  · intro delivered handed hmem
    obtain ⟨t, u, step⟩ := run.exists_step hmem
    cases step.1 with
    | poll _ sink timeout => exact log_select selector t.kernel sink timeout
  · intro request result t step fd filter hfd
    cases step.1 with
    | request =>
        rw [System.kernel_after]
        exact knotes_request_of_ne hfd selector filter

/-- A handle registered for both as a oneshot, of which the readable half has fired. -/
theorem kqueue_refines_half_fired :
    let both : Registration := ⟨⟨7⟩, Interests.both, RegisterOption.oneshot⟩
    let fired : List Kevent := [newKevent 3 .read (knoteOf both).flags ⟨7⟩]
    ∃ s, Refines [.request (.register 3 both) (.ok ()), .environment,
        .poll fired [⟨⟨7⟩, Ready.readable⟩]] s
      ∧ s.kernel.knotes (3, .read) = none ∧ s.kernel.knotes (3, .write) = some (knoteOf both) := by
  intro both fired
  let kernel := (Selector.request ⟨0⟩ (.register 3 both) KernelQueue.empty).2
  have hregister := Run.nil.snoc
    (@orderlyStep_request ⟨0⟩ System.new ⟨rfl, fun _ => rfl⟩ (.register 3 both) rfl)
  have hactive := hregister.snoc
    ⟨.environment _ { kernel with active := [(3, .read)] } rfl, ⟨rfl, fun _ => rfl⟩, nofun⟩
  have hpoll := hactive.snoc
    ⟨.poll _ ([] : List Event) none, ⟨rfl, fun _ => rfl⟩, nofun⟩
  exact ⟨_, (kqueue_refines hpoll).1, by decide +kernel, by decide +kernel⟩

end Gaea.Sys.Kqueue
