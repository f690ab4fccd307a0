import Gaea.Proof.KqueueRun
import Mathlib.Data.ENat.Basic

/-!
# Oneshots of a kqueue

A handle that is registered as a oneshot is to give a single event, but it is each of its filters
that is a oneshot. There is a single event as long as the registration leaves the handle with one
filter.
-/

namespace Gaea.Sys.Kqueue

open Transition

/-- How many more events an entry can give. -/
def shots : Option Knote → ℕ∞
  | none => 0
  | some knote => if knote.isOneshot then 1 else ⊤

/-- What an entry can still give goes down by what it gives. -/
theorem Fired.shots_le {before after : Option Knote} {n : Nat} (h : Fired before n after) :
    n + shots after ≤ shots before := by
  cases h with
  | quiet => rw [Nat.cast_zero, zero_add]
  | oneshot knote honeshot => simp [shots, honeshot]
  | repeated knote n honeshot => simp [shots, honeshot]

theorem shots_asked_of_isOneshot {registration : Registration}
    (honeshot : registration.opt.isOneshot = true) (fd : RawFd) (filter : Filter) :
    shots (asked (.reregister fd registration) filter)
      = if wanted registration.interests filter then 1 else 0 := by
  rw [asked]
  split
  · rw [shots, isOneshot_knoteOf, if_pos honeshot]
  · rfl

/-- The events that are added to a sink for a handle. -/
def Label.added (fd : RawFd) : Label → Multiset Event
  | .poll delivered handed => addedFor (descriptorKeys fd) delivered handed
  | .request _ _ | .environment => 0

def eventsSince (fd : RawFd) (labels : List Label) : Nat :=
  ((since (Label.registers fd) labels).map fun label => (label.added fd).card).sum

def shotsOf (kqueue : KernelQueue) (fd : RawFd) : ℕ∞ :=
  shots (kqueue.knotes (identOf fd, .write)) + shots (kqueue.knotes (identOf fd, .read))

/-- A registration as a oneshot is not for both interests, and finds no filter that it does not
overwrite. -/
def SingleFilter (kqueue : KernelQueue) : Request → Prop
  | .register fd registration => registration.opt.isOneshot = true →
      ¬ (registration.interests.isWritable = true ∧ registration.interests.isReadable = true)
        ∧ ∀ filter, wanted registration.interests filter = false →
          kqueue.knotes (identOf fd, filter) = none
  | .reregister _ registration => registration.opt.isOneshot = true →
      ¬ (registration.interests.isWritable = true ∧ registration.interests.isReadable = true)
  | .deregister _ => True

/-- What a request changes before it fails lets no filter fire more often than before. -/
def FailsSafely (kqueue : KernelQueue) (request : Request) : Prop :=
  kqueue.callError = none → ∀ filter ∈ filtersOf request,
    kqueue.refuse (changeOf request filter) = none →
    shots (asked request filter) ≤ shots (kqueue.knotes (identOf (fdOf request), filter))

/-- The steps that keep a handle to a single event. -/
def SingleShot (fd : RawFd) (s : System) : Label → Prop
  | .request request (.ok ()) => fdOf request = fd → SingleFilter s.kernel request
  | .request request (.error _) => fdOf request = fd →
      (∃ last, s.last fd = some last ∧ last.opt.isOneshot = true) → FailsSafely s.kernel request
  | .poll _ _ | .environment => True

theorem SingleShot.of_ne {fd : RawFd} {request : Request} (hfd : fdOf request ≠ fd) (s : System)
    (result : Except IoError Unit) : SingleShot fd s (.request request result) := by
  cases result with
  | ok => exact fun heq => absurd heq hfd
  | error err => exact fun heq => absurd heq hfd

/-! ## Requests -/

section Request

variable {kqueue : KernelQueue} {request : Request} {selector : Selector}

/-- A request that succeeds is a request that has not been refused anything. -/
theorem knotes_request_of_ok (hok : (selector.request request kqueue).1 = .ok ()) {filter : Filter}
    (hmem : filter ∈ filtersOf request) :
    (selector.request request kqueue).2.knotes (identOf (fdOf request), filter)
      = asked request filter := by
  cases hcall : kqueue.callError with
  | some errno =>
      rw [request_eq, keventRegister_of_callError hcall] at hok
      cases hok
  | none =>
      have hserved := served_request hcall selector request
      have hdone := hserved.ok_iff.mp hok filter hmem
      rw [hserved.changed filter hmem]
      cases hrefuse : kqueue.refuse (changeOf request filter) with
      | none => rfl
      | some errno =>
          have hne := kqueue.refuse_ne _ errno hrefuse
          rw [KernelQueue.errorOf, hrefuse] at hdone
          rcases hdone with hzero | hignored
          · exact absurd hzero hne.1
          · cases request with
            | register fd registration => exact absurd hignored List.not_mem_nil
            | reregister fd registration | deregister fd =>
                exact absurd (List.mem_singleton.mp hignored) hne.2

/-- The registrations of a oneshot that keep to a single event. -/
theorem shotsOf_request_le_one {registration : Registration}
    (hnotBoth : ¬ (registration.interests.isWritable = true
      ∧ registration.interests.isReadable = true))
    (hafter : ∀ filter ∈ [Filter.write, .read],
      shots ((selector.request request kqueue).2.knotes (identOf (fdOf request), filter))
        = if wanted registration.interests filter then 1 else 0) :
    shotsOf (selector.request request kqueue).2 (fdOf request) ≤ 1 := by
  rw [shotsOf, hafter .write (by simp), hafter .read (by simp)]
  by_cases hwritable : registration.interests.isWritable = true
  · have hreadable : ¬ registration.interests.isReadable = true :=
      fun hreadable => hnotBoth ⟨hwritable, hreadable⟩
    simp [wanted, hwritable, hreadable]
  · by_cases hreadable : registration.interests.isReadable = true
    · simp [wanted, hwritable, hreadable]
    · simp [wanted, hwritable, hreadable]

theorem shotsOf_request_le (hshots : ∀ filter ∈ filtersOf request,
      shots ((selector.request request kqueue).2.knotes (identOf (fdOf request), filter))
        ≤ shots (kqueue.knotes (identOf (fdOf request), filter))) :
    shotsOf (selector.request request kqueue).2 (fdOf request)
      ≤ shotsOf kqueue (fdOf request) := by
  have hle (filter : Filter) :
      shots ((selector.request request kqueue).2.knotes (identOf (fdOf request), filter))
        ≤ shots (kqueue.knotes (identOf (fdOf request), filter)) := by
    by_cases hmem : filter ∈ filtersOf request
    · exact hshots filter hmem
    · exact le_of_eq (congrArg shots (knotes_request_of_notMem hmem selector))
  exact add_le_add (hle .write) (hle .read)

/-- Where a request fails, the filters that it was refused stay as they are. -/
theorem shotsOf_request_le_of_failsSafely
    (hsafely : FailsSafely kqueue request) :
    shotsOf (selector.request request kqueue).2 (fdOf request)
      ≤ shotsOf kqueue (fdOf request) := by
  cases hcall : kqueue.callError with
  | some errno => rw [request_eq, keventRegister_of_callError hcall]
  | none =>
      apply shotsOf_request_le
      intro filter hmem
      rw [(served_request hcall selector request).changed filter hmem]
      cases hrefuse : kqueue.refuse (changeOf request filter) with
      | some errno => exact le_rfl
      | none => exact hsafely hcall filter hmem hrefuse

theorem shots_register {fd : RawFd} {registration : Registration}
    (honeshot : registration.opt.isOneshot = true)
    (hok : (selector.request (.register fd registration) kqueue).1 = .ok ())
    (hnone : ∀ filter, wanted registration.interests filter = false →
      kqueue.knotes (identOf fd, filter) = none) {filter : Filter}
    (hpair : filter ∈ [Filter.write, .read]) :
    shots ((selector.request (.register fd registration) kqueue).2.knotes (identOf fd, filter))
      = if wanted registration.interests filter then 1 else 0 := by
  by_cases hwanted : wanted registration.interests filter = true
  · have hmem : filter ∈ filtersOf (.register fd registration) :=
      List.mem_filter.mpr ⟨hpair, hwanted⟩
    calc _ = shots (asked (.register fd registration) filter) :=
          congrArg shots (knotes_request_of_ok hok hmem)
      _ = if wanted registration.interests filter then 1 else 0 :=
          shots_asked_of_isOneshot honeshot fd filter
  · have hmem : filter ∉ filtersOf (.register fd registration) :=
      fun hmem => hwanted (wanted_of_mem_filtersOf_register hmem)
    rw [if_neg hwanted]
    calc _ = shots (kqueue.knotes (identOf fd, filter)) :=
          congrArg shots (knotes_request_of_notMem hmem selector)
      _ = shots none := congrArg shots (hnone filter (eq_false_of_ne_true hwanted))
      _ = 0 := rfl

theorem shots_reregister {fd : RawFd} {registration : Registration}
    (honeshot : registration.opt.isOneshot = true)
    (hok : (selector.request (.reregister fd registration) kqueue).1 = .ok ()) {filter : Filter}
    (hpair : filter ∈ [Filter.write, .read]) :
    shots ((selector.request (.reregister fd registration) kqueue).2.knotes (identOf fd, filter))
      = if wanted registration.interests filter then 1 else 0 :=
  calc _ = shots (asked (.reregister fd registration) filter) :=
        congrArg shots (knotes_request_of_ok hok hpair)
    _ = if wanted registration.interests filter then 1 else 0 :=
        shots_asked_of_isOneshot honeshot fd filter

end Request

/-! ## Runs -/

/-- What a oneshot handle has given since its registration, and can still give, is at most one
event. -/
def OneEvent (fd : RawFd) (labels : List Label) (s : System) : Prop :=
  ∀ registration, s.last fd = some registration → registration.opt.isOneshot = true →
    eventsSince fd labels + shotsOf s.kernel fd ≤ 1

theorem eventsSince_snoc {fd : RawFd} {label : Label} (labels : List Label)
    (hregisters : label.registers fd = false) :
    eventsSince fd (labels ++ [label]) = eventsSince fd labels + (label.added fd).card := by
  rw [eventsSince, since_snoc_of_neg labels hregisters, List.map_append, List.sum_append]
  simp [eventsSince]

theorem eventsSince_of_registers {fd : RawFd} {label : Label} (labels : List Label)
    (hregisters : label.registers fd = true) : eventsSince fd (labels ++ [label]) = 0 := by
  rw [eventsSince, since_snoc_of_pos labels hregisters]
  rfl

/-- A step that does not register the handle must pay for its events with what the handle can still
give. -/
theorem OneEvent.snoc {fd : RawFd} {labels : List Label} {s : System} (h : OneEvent fd labels s)
    {last : Registration} (hlast : s.last fd = some last) (honeshot : last.opt.isOneshot = true)
    {label : Label} {kernel : KernelQueue} (hregisters : label.registers fd = false)
    (hshots : ((label.added fd).card : ℕ∞) + shotsOf kernel fd ≤ shotsOf s.kernel fd) :
    eventsSince fd (labels ++ [label]) + shotsOf kernel fd ≤ 1 := by
  rw [eventsSince_snoc labels hregisters, Nat.cast_add, add_assoc]
  calc _ ≤ (eventsSince fd labels : ℕ∞) + shotsOf s.kernel fd := add_le_add_right hshots _
    _ ≤ 1 := h last hlast honeshot

theorem OneEvent.request {fd : RawFd} {selector : Selector} {labels : List Label} {s : System}
    (h : OneEvent fd labels s) {request : Request}
    (hsingle : SingleShot fd s (.request request (selector.request request s.kernel).1)) :
    OneEvent fd (labels ++ [.request request (selector.request request s.kernel).1])
      (s.after request (selector.request request s.kernel)) := by
  intro last hlast honeshot
  rw [System.last_after] at hlast
  rw [System.kernel_after]
  -- what does not register the handle must not let it fire more often
  have hkeeps (hregisters : (Label.request request (selector.request request s.kernel).1).registers
        fd = false) (hlast : s.last fd = some last)
      (hshots : shotsOf (selector.request request s.kernel).2 fd ≤ shotsOf s.kernel fd) :
      eventsSince fd (labels ++ [.request request (selector.request request s.kernel).1])
        + shotsOf (selector.request request s.kernel).2 fd ≤ 1 :=
    h.snoc hlast honeshot hregisters (le_of_eq_of_le (zero_add _) hshots)
  by_cases hfd : fd = fdOf request
  · subst hfd
    cases hresult : (selector.request request s.kernel).1 with
    | error errno =>
        rw [hresult] at hsingle hlast hkeeps
        rw [if_neg nofun] at hlast
        apply hkeeps (by cases request <;> rfl) hlast
        apply shotsOf_request_le_of_failsSafely
        exact hsingle rfl ⟨last, hlast, honeshot⟩
    | ok =>
        rw [hresult] at hsingle hlast hkeeps
        rw [if_pos rfl] at hlast
        cases request with
        | register fd registration =>
            obtain rfl : registration = last :=
              Option.some.inj ((Function.update_self fd _ s.last).symm.trans hlast)
            obtain ⟨hnotBoth, hnone⟩ := hsingle rfl honeshot
            rw [eventsSince_of_registers labels (Label.registers_register fd registration),
              Nat.cast_zero, zero_add]
            apply shotsOf_request_le_one hnotBoth
            intro filter hpair
            exact shots_register honeshot hresult hnone hpair
        | reregister fd registration =>
            obtain rfl : registration = last :=
              Option.some.inj ((Function.update_self fd _ s.last).symm.trans hlast)
            rw [eventsSince_of_registers labels (Label.registers_reregister fd registration),
              Nat.cast_zero, zero_add]
            apply shotsOf_request_le_one (hsingle rfl honeshot)
            intro filter hpair
            exact shots_reregister honeshot hresult hpair
        | deregister fd =>
            apply hkeeps rfl hlast
            apply shotsOf_request_le
            intro filter hmem
            rw [knotes_request_of_ok hresult hmem]
            exact zero_le
  · apply hkeeps (Label.registers_of_ne hfd _)
    · rw [← hlast]
      split
      · exact (System.remember_of_ne hfd s.last).symm
      · rfl
    · simp only [shotsOf, knotes_request_of_ne hfd, le_refl]

theorem OneEvent.step {fd : RawFd} {selector : Selector} {labels : List Label} {s t : System}
    {label : Label} (h : OneEvent fd labels s) (step : Step selector s label t)
    (hsingle : SingleShot fd s label) : OneEvent fd (labels ++ [label]) t := by
  cases step with
  | request _ request => exact h.request hsingle
  | @poll ES _ _ sink timeout =>
      intro last hlast honeshot
      have hfired (filter : Filter) := ((select_spec selector s.kernel (⟨sink, []⟩ : Tap ES)
        timeout).2 (identOf fd, filter)).shots_le
      rw [log_select selector s.kernel sink timeout]
      apply h.snoc hlast honeshot rfl
      rw [Label.added, card_addedFor, Nat.cast_add, shotsOf, add_add_add_comm]
      exact add_le_add (hfired .write) (hfired .read)
  | environment _ kernel hknotes =>
      intro last hlast honeshot
      apply h.snoc hlast honeshot rfl
      rw [shotsOf, hknotes]
      exact le_of_eq (zero_add _)

/-- **A oneshot gives a single event.** As long as every registration of the handle as a oneshot
leaves it with a single filter, in whatever order the filters fire, and whatever becomes of other
handles. -/
theorem eventsSince_le_one {fd : RawFd} {selector : Selector} {labels : List Label} {s : System}
    (run : Run (fun s label t => Step selector s label t ∧ SingleShot fd s label) System.new labels
      s)
    {registration : Registration} (hlast : s.last fd = some registration)
    (honeshot : registration.opt.isOneshot = true) : eventsSince fd labels ≤ 1 := by
  have hone : OneEvent fd labels s := by
    apply run.invariant (I := OneEvent fd)
    · intro registration hlast
      cases hlast
    · intro labels s label t h step
      exact h.step step.1 step.2
  have hsum : (eventsSince fd labels : ℕ∞) ≤ 1 :=
    calc (eventsSince fd labels : ℕ∞) ≤ eventsSince fd labels + shotsOf s.kernel fd := le_self_add
      _ ≤ 1 := hone registration hlast honeshot
  exact_mod_cast hsum

/-- A handle that is a oneshot for reading, and is readable twice, next to one that is registered for
both under the same id. -/
theorem eventsSince_le_one_readable_twice :
    let reader : Registration := ⟨⟨7⟩, Interests.readable, RegisterOption.oneshot⟩
    let both : Registration := ⟨⟨7⟩, Interests.both, RegisterOption.oneshot⟩
    let fired : List Kevent := [(knoteOf both).kevent (4, .read), (knoteOf reader).kevent (3, .read),
      (knoteOf both).kevent (4, .write)]
    eventsSince 3 [.request (.register 3 reader) (.ok ()), .request (.register 4 both) (.ok ()),
      .environment, .poll fired (fired.map keventToEvent)] ≤ 1 := by
  intro reader both fired
  let first := System.new.after (.register 3 reader)
    (Selector.request ⟨0⟩ (.register 3 reader) System.new.kernel)
  let second := first.after (.register 4 both)
    (Selector.request ⟨0⟩ (.register 4 both) first.kernel)
  let ready : KernelQueue :=
    { second.kernel with active := [(4, .read), (3, .read), (3, .read), (4, .write)] }
  have hnil : Run (fun s label t => Step ⟨0⟩ s label t ∧ SingleShot 3 s label) System.new [] _ :=
    Run.nil
  have hregister := hnil.snoc
    ⟨.request _ (.register 3 reader), fun _ _ => ⟨by decide, fun _ _ => rfl⟩⟩
  have hother := hregister.snoc
    ⟨.request first (.register 4 both), SingleShot.of_ne (by decide) first _⟩
  have hactive := hother.snoc ⟨.environment second ready rfl, trivial⟩
  have hpoll := hactive.snoc ⟨.poll { second with kernel := ready } ([] : List Event) none, trivial⟩
  have hok : (Selector.request ⟨0⟩ (.register 3 reader) System.new.kernel).1 = .ok ()
      ∧ (Selector.request ⟨0⟩ (.register 4 both) first.kernel).1 = .ok () := by decide +kernel
  have htaken : taken ready ([] : List Event) = fired := by decide +kernel
  rw [hok.1, hok.2, log_select, htaken] at hpoll
  have hlast : second.last 3 = some reader := by decide +kernel
  exact eventsSince_le_one hpoll hlast (by decide)

/-- A handle that is a oneshot for both interests, and is readable and writable at once, gives two
events. -/
theorem both_gives_two_events :
    let both : Registration := ⟨⟨7⟩, Interests.both, RegisterOption.oneshot⟩
    let registered := (Selector.request ⟨0⟩ (.register 3 both) KernelQueue.empty).2
    let ready : KernelQueue := { registered with active := [(3, .read), (3, .write)] }
    let handed : List Event := [⟨⟨7⟩, Ready.readable⟩, ⟨⟨7⟩, Ready.writable⟩]
    let labels := [.request (.register 3 both) (.ok ()), .environment,
      .poll [(knoteOf both).kevent (3, .read), (knoteOf both).kevent (3, .write)] handed]
    (∃ s, Run (Step ⟨0⟩) System.new labels s ∧ s.last 3 = some both) ∧ eventsSince 3 labels = 2
      ∧ (Selector.select ⟨0⟩ ([] : List Event) none ready).1 = handed := by
  intro both registered ready handed labels
  have hregister := Run.nil.snoc (@Step.request ⟨0⟩ System.new (.register 3 both))
  have hpoll := (hregister.snoc (.environment _ ready rfl)).snoc (.poll _ ([] : List Event) none)
  exact ⟨⟨_, hpoll, rfl⟩, by decide +kernel, by decide +kernel⟩

end Gaea.Sys.Kqueue
