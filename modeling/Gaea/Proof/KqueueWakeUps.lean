import Gaea.Library.Run
import Gaea.Proof.KqueueReceipts
import Gaea.Sys.UserFilter

/-!
# Wake-ups on kqueue

All awakeners of a queue share the user filter of its kqueue. A poll that gets to the filter adds one
event of it to the sink if there has been a wake-up since the last report, with the id of the last
one, and none otherwise. A wake-up adds the filter again, and `Kevent.added` leaves it its flags.
-/

namespace Gaea.Sys.Kqueue

open Transition

namespace UserQueue

/-! ## Waking -/

def wakeChange (id : Id) : Kevent :=
  { newKevent 0 .user (evAdd ||| evReceipt) id with fflags := noteTrigger }

def setupChange (id : Id) : Kevent := newKevent 0 .user (evAdd ||| evClear ||| evReceipt) id

/-- A change that adds the user filter, and asks for a receipt. -/
structure Adds (change : Kevent) : Prop where
  key_eq : change.key = userKey
  add : containsFlag change.flags evAdd = true
  receipt : containsFlag change.flags evReceipt = true

theorem adds_wakeChange (id : Id) : Adds (wakeChange id) where
  key_eq := rfl
  add := (by decide : containsFlag (evAdd ||| evReceipt) evAdd = true)
  receipt := (by decide : containsFlag (evAdd ||| evReceipt) evReceipt = true)

theorem adds_setupChange (id : Id) : Adds (setupChange id) where
  key_eq := rfl
  add := (by decide : containsFlag (evAdd ||| evClear ||| evReceipt) evAdd = true)
  receipt := (by decide : containsFlag (evAdd ||| evClear ||| evReceipt) evReceipt = true)

variable {queue : UserQueue} {change : Kevent}

theorem makeChanges_of_refuse (hrefuse : queue.refuse change ≠ 0) :
    queue.makeChanges [change] = queue := by
  simp [makeChanges, UserQueue.change, hrefuse]

theorem makeChanges_of_adds (h : Adds change) (hrefuse : queue.refuse change = 0) :
    queue.makeChanges [change] = { queue with filter := some (add change queue.filter) } := by
  simp [makeChanges, UserQueue.change, hrefuse, h.key_eq, h.add]

/-- A call that adds the user filter succeeds and has added it, or fails and has done nothing. -/
theorem keventRegister_cases (h : Adds change) (kq : RawFd) (queue : UserQueue) :
    (keventRegister kq [change] [] queue
        = (.ok (), { queue with filter := some (add change queue.filter) }))
      ∨ ∃ err, keventRegister kq [change] [] queue = (.error err, queue) := by
  rcases Option.eq_none_or_eq_some queue.callError with hcall | ⟨errno, hcall⟩
  · have hreceipts : queue.receipts [change]
        = [KernelQueue.receipt change (queue.refuse change)] := by
      simp [receipts, h.receipt]
    have hkevent : queue.kevent [change] 1
        = (⟨1, [KernelQueue.receipt change (queue.refuse change)], 0⟩,
          queue.makeChanges [change]) := by
      rw [kevent, hcall, hreceipts]
      rfl
    have hcheck := checkErrors_eq_ok_iff [] [change] queue.refuse
    simp only [List.map_cons, List.map_nil, List.mem_singleton, forall_eq, List.not_mem_nil,
      or_false] at hcheck
    have hrun : keventRegister kq [change] [] queue
        = (checkErrors [] [KernelQueue.receipt change (queue.refuse change)],
          queue.makeChanges [change]) := by
      simp only [keventRegister, Kernel.kevent, List.length_singleton, hkevent]
      rfl
    by_cases hrefuse : queue.refuse change = 0
    · left
      rw [hrun, hcheck.mpr hrefuse, makeChanges_of_adds h hrefuse]
    · right
      rw [hrun, makeChanges_of_refuse hrefuse]
      cases hresult : checkErrors [] [KernelQueue.receipt change (queue.refuse change)] with
      | ok _ => exact absurd (hcheck.mp hresult) hrefuse
      | error err => exact ⟨err, rfl⟩
  · have hkevent : queue.kevent [change] 1
        = (⟨-1, [], errno⟩, if errno = eintr then queue.makeChanges [change] else queue) := by
      rw [kevent, hcall]
    have hrun : keventRegister kq [change] [] queue
        = (if errno = eintr then .ok () else .error ⟨errno⟩,
          if errno = eintr then queue.makeChanges [change] else queue) := by
      simp only [keventRegister, Kernel.kevent, List.length_singleton, hkevent, if_true]
    by_cases heintr : errno = eintr
    · left
      rw [hrun, if_pos heintr, if_pos heintr,
        makeChanges_of_adds h (queue.interrupted (heintr ▸ hcall) change)]
    · right
      rw [hrun, if_neg heintr, if_neg heintr]
      exact ⟨_, rfl⟩

/-! ## Polling -/

/-- The events that a poll with this much room takes off the queue. -/
def taken (queue : UserQueue) (capacity : Capacity) : List Kevent :=
  if queue.callError.isSome then [] else queue.written (capacity.min eventsCap)

/-- The poll does not fail, and gets to the user filter. -/
def reaches (queue : UserQueue) (capacity : Capacity) : Bool :=
  queue.callError.isNone && decide (queue.ahead.length < capacity.min eventsCap)

theorem filter_others {kevents : List Kevent} (h : ∀ kevent ∈ kevents, kevent.filter ≠ .user) :
    kevents.filter (fun kevent => kevent.key ∈ [userKey]) = [] := by
  rw [List.filter_eq_nil_iff]
  intro kevent hmem
  rw [decide_eq_true_eq, List.mem_singleton]
  exact fun hkey => h kevent hmem (congrArg Prod.snd hkey)

theorem ready_cases (queue : UserQueue) :
    queue.ready = [] ∨ ∃ filter, queue.filter = some filter ∧ filter.triggered = true
      ∧ queue.ready = [filter.kevent userKey] := by
  unfold ready
  cases queue.filter with
  | none => exact Or.inl rfl
  | some filter =>
      by_cases htriggered : filter.triggered = true
      · exact Or.inr ⟨filter, rfl, htriggered, if_pos htriggered⟩
      · exact Or.inl (if_neg htriggered)

theorem filter_taken (queue : UserQueue) (capacity : Capacity) :
    (queue.taken capacity).filter (fun kevent => kevent.key ∈ [userKey])
      = if queue.reaches capacity then queue.ready else [] := by
  have hothers (kevents : List Kevent) (hsub : kevents ⊆ queue.ahead ++ queue.behind) :
      kevents.filter (fun kevent => kevent.key ∈ [userKey]) = [] :=
    filter_others fun kevent hmem => queue.others kevent (hsub hmem)
  unfold taken reaches
  cases hcall : queue.callError with
  | some errno => rfl
  | none =>
      generalize capacity.min eventsCap = nevents
      have hahead := hothers (queue.ahead.take nevents)
        (fun _ hmem => List.mem_append_left _ (List.mem_of_mem_take hmem))
      have hbehind := hothers (queue.behind.take
          (nevents - (queue.ahead ++ queue.ready).length))
        (fun _ hmem => List.mem_append_right _ (List.mem_of_mem_take hmem))
      simp only [Option.isSome_none, Bool.false_eq_true, if_false, Option.isNone_none,
        Bool.true_and, decide_eq_true_eq, written]
      rw [List.take_append, List.take_append, List.filter_append, List.filter_append, hahead,
        hbehind, List.nil_append, List.append_nil]
      rcases queue.ready_cases with hready | ⟨filter, -, -, hready⟩
      · rw [hready]
        simp
      · rw [hready]
        by_cases hreach : queue.ahead.length < nevents
        · rw [if_pos hreach, List.take_of_length_le (by simp; omega)]
          rfl
        · rw [if_neg hreach, Nat.sub_eq_zero_of_le (not_lt.mp hreach)]
          rfl

theorem length_written_le (queue : UserQueue) (nevents : Nat) :
    (queue.written nevents).length ≤ nevents := List.length_take_le _ _

section Select

variable {ES : Type} [Sink ES]

/-- A poll adds to the sink what it takes off the queue, and nothing when it fails. -/
theorem select_eq (selector : Selector) (sink : ES) (timeout : Option Duration)
    (queue : UserQueue) :
    (selector.select sink timeout queue).1
        = (if queue.taken (Sink.capacityLeft sink) = [] then sink
          else Sink.extend sink ((queue.taken (Sink.capacityLeft sink)).map keventToEvent))
      ∧ (selector.select sink timeout queue).2.1
        = (if queue.callError.isSome then queue
          else queue.deliver ((Sink.capacityLeft sink).min eventsCap)) := by
  have hlength := (queue.length_written_le ((Sink.capacityLeft sink).min eventsCap)).trans
    ((Sink.capacityLeft sink).min_le eventsCap)
  unfold taken
  rcases Option.eq_none_or_eq_some queue.callError with hcall | ⟨errno, hcall⟩
  · have hkevent (nevents : Nat) : queue.kevent [] nevents
        = (⟨Int32.ofNat (queue.written nevents).length, queue.written nevents, 0⟩,
          queue.deliver nevents) := by
      simp only [kevent, hcall]
      rfl
    simp only [hcall, Option.isSome_none, Bool.false_eq_true, if_false, Selector.select,
      Kernel.kevent, hkevent]
    rw [take_written hlength _ _ fun slots =>
      (Sink.extend sink (slots.map slotToEvent), _, _), map_slotToEvent]
    split <;> exact ⟨rfl, rfl⟩
  · have hkevent (nevents : Nat) : queue.kevent [] nevents = (⟨-1, [], errno⟩, queue) := by
      simp only [kevent, hcall]
      split <;> rfl
    simp only [Selector.select, Kernel.kevent, hkevent, hcall, Option.isSome_some, if_true,
      and_self]

/-- What a poll adds to the sink for the user filter is the event of the filter, if it gets there. -/
theorem addedFor_select (selector : Selector) (sink : ES) (timeout : Option Duration)
    (queue : UserQueue) :
    addedFor [userKey] (queue.taken (Sink.capacityLeft sink))
        (selector.select (⟨sink, []⟩ : Tap ES) timeout queue).1.log
      = (if queue.reaches (Sink.capacityLeft sink) then queue.ready.map keventToEvent else [] :
          List Event) := by
  have hlog : (selector.select (⟨sink, []⟩ : Tap ES) timeout queue).1.log
      = (queue.taken (Sink.capacityLeft sink)).map keventToEvent := by
    rw [(select_eq selector (⟨sink, []⟩ : Tap ES) timeout queue).1]
    split_ifs with hnone
    · have hnone : queue.taken (Sink.capacityLeft sink) = [] := hnone
      rw [hnone]
      rfl
    · rfl
  rw [hlog, addedFor_map, filter_taken]
  split <;> rfl

end Select

end UserQueue

/-! ## Runs -/

inductive WakeLabel where
  | wake (awakener : Awakener) (result : Except IoError Unit)
  /-- The events that the kernel delivers, those that are added to the sink, and whether the poll
  gets to the user filter. -/
  | poll (delivered : List Kevent) (handed : List Event) (reached : Bool)
  | environment

/-- The environment decides about all but the user filter. -/
inductive WakeStep : UserQueue → WakeLabel → UserQueue → Prop where
  | wake (queue : UserQueue) (awakener : Awakener) :
      WakeStep queue (.wake awakener (awakener.wake queue).1) (awakener.wake queue).2
  | poll {ES : Type} [Sink ES] (queue : UserQueue) (selector : Selector) (sink : ES)
      (timeout : Option Duration) :
      WakeStep queue
        (.poll (queue.taken (Sink.capacityLeft sink))
          (selector.select (⟨sink, []⟩ : Tap ES) timeout queue).1.log
          (queue.reaches (Sink.capacityLeft sink)))
        (selector.select (⟨sink, []⟩ : Tap ES) timeout queue).2.1
  | environment (before after : UserQueue) (hfilter : after.filter = before.filter) :
      WakeStep before .environment after

namespace WakeLabel

def reports : WakeLabel → Bool
  | poll delivered handed _ => addedFor [userKey] delivered handed ≠ 0
  | _ => false

def wakes : WakeLabel → Option Id
  | wake awakener (.ok ()) => some awakener.id
  | _ => none

/-- The last successful wake-up since the last report. -/
def pending (labels : List WakeLabel) : Option Id :=
  ((since reports labels).filterMap wakes).getLast?

theorem pending_snoc_of_reports {label : WakeLabel} (labels : List WakeLabel)
    (h : label.reports = true) : pending (labels ++ [label]) = none := by
  rw [pending, since_snoc_of_pos labels h]
  rfl

theorem pending_snoc_of_wakes {label : WakeLabel} {id : Id} (labels : List WakeLabel)
    (h : label.reports = false) (hwakes : label.wakes = some id) :
    pending (labels ++ [label]) = some id := by
  rw [pending, since_snoc_of_neg labels h, List.filterMap_append]
  simp [hwakes]

theorem pending_snoc_of_quiet {label : WakeLabel} (labels : List WakeLabel)
    (h : label.reports = false) (hwakes : label.wakes = none) :
    pending (labels ++ [label]) = pending labels := by
  rw [pending, since_snoc_of_neg labels h, List.filterMap_append]
  simp [hwakes, pending]

end WakeLabel

def armedFlags : UInt32 := evAdd ||| evClear ||| evReceipt

/-- The user filter is armed, and triggered if there is a wake-up to report. -/
def Armed (pending : Option Id) (queue : UserQueue) : Prop :=
  ∃ filter, queue.filter = some filter ∧ filter.flags = armedFlags
    ∧ pending = if filter.triggered then some ⟨filter.udata⟩ else none

namespace Armed

variable {pending : Option Id} {queue : UserQueue}

theorem ready_eq (h : Armed pending queue) :
    queue.ready.map keventToEvent = pending.toList.map fun id => ⟨id, Ready.readable⟩ := by
  obtain ⟨⟨⟨flags, udata⟩, triggered⟩, hfilter, hflags, hpending⟩ := h
  dsimp only at hflags hpending
  subst hflags
  rw [UserQueue.ready, hfilter, hpending]
  cases triggered with
  | false => rfl
  | true =>
      have herror : containsFlag armedFlags evError = false := by decide
      have heof : containsFlag armedFlags evEof = false := by decide
      simp only [if_true, List.map_cons, List.map_nil, Knote.kevent, userKey, keventToEvent, herror,
        heof, Bool.false_eq_true, if_false, Option.toList_some]
      rfl

theorem addedFor_select {ES : Type} [Sink ES] (h : Armed pending queue) (selector : Selector)
    (sink : ES) (timeout : Option Duration) :
    addedFor [userKey] (queue.taken (Sink.capacityLeft sink))
        (selector.select (⟨sink, []⟩ : Tap ES) timeout queue).1.log
      = (if queue.reaches (Sink.capacityLeft sink) then
          pending.toList.map fun id => ⟨id, Ready.readable⟩
        else [] : List Event) := by
  rw [UserQueue.addedFor_select, h.ready_eq]

theorem woke (h : Armed pending queue) (id : Id) :
    Armed (some id)
      { queue with filter := some (UserQueue.add (UserQueue.wakeChange id) queue.filter) } := by
  obtain ⟨filter, hfilter, hflags, -⟩ := h
  refine ⟨⟨⟨filter.flags, id.val⟩, true⟩, ?_, hflags, rfl⟩
  have htrigger : containsFlag (UserQueue.wakeChange id).fflags noteTrigger = true :=
    (by decide : containsFlag noteTrigger noteTrigger = true)
  simp only [hfilter, UserQueue.add, htrigger, Bool.or_true]
  rfl

/-- Delivering the event disarms nothing, but takes the wake-up. -/
theorem deliver (h : Armed pending queue) (nevents : Nat) :
    Armed (if queue.ahead.length < nevents then none else pending) (queue.deliver nevents) := by
  obtain ⟨filter, hfilter, hflags, hpending⟩ := h
  by_cases hreach : queue.ahead.length < nevents
  · refine ⟨filter.fire, ?_, hflags, ?_⟩
    · rw [UserQueue.deliver, hfilter]
      exact if_pos hreach
    · have hclear : containsFlag filter.flags evClear = true := by
        rw [hflags]
        decide
      rw [if_pos hreach, UserFilter.fire, hclear]
      simp
  · refine ⟨filter, ?_, hflags, ?_⟩
    · rw [UserQueue.deliver, hfilter]
      exact if_neg hreach
    · rw [if_neg hreach]
      exact hpending

theorem select {ES : Type} [Sink ES] (h : Armed pending queue) (selector : Selector) (sink : ES)
    (timeout : Option Duration) :
    Armed (if queue.reaches (Sink.capacityLeft sink) then none else pending)
      (selector.select sink timeout queue).2.1 := by
  rw [(UserQueue.select_eq selector sink timeout queue).2, UserQueue.reaches]
  cases hcall : queue.callError with
  | some errno => exact h
  | none =>
      have hdeliver := h.deliver ((Sink.capacityLeft sink).min eventsCap)
      simpa using hdeliver

/-- A poll that gets to the filter leaves no wake-up behind. -/
theorem pending_snoc_poll {ES : Type} [Sink ES] {labels : List WakeLabel}
    (h : Armed (WakeLabel.pending labels) queue) (selector : Selector) (sink : ES)
    (timeout : Option Duration) :
    WakeLabel.pending (labels ++ [.poll (queue.taken (Sink.capacityLeft sink))
        (selector.select (⟨sink, []⟩ : Tap ES) timeout queue).1.log
        (queue.reaches (Sink.capacityLeft sink))])
      = if queue.reaches (Sink.capacityLeft sink) then none else WakeLabel.pending labels := by
  have hadded := h.addedFor_select selector sink timeout
  by_cases hnone : addedFor [userKey] (queue.taken (Sink.capacityLeft sink))
      (selector.select (⟨sink, []⟩ : Tap ES) timeout queue).1.log = 0
  · rw [WakeLabel.pending_snoc_of_quiet labels (by simp [WakeLabel.reports, hnone]) rfl]
    by_cases hreaches : queue.reaches (Sink.capacityLeft sink) = true
    · rw [hnone, if_pos hreaches, eq_comm, Multiset.coe_eq_zero, List.map_eq_nil_iff,
        Option.toList_eq_nil_iff] at hadded
      rw [if_pos hreaches, hadded]
    · rw [if_neg hreaches]
  · rw [WakeLabel.pending_snoc_of_reports labels (by simp [WakeLabel.reports, hnone])]
    by_cases hreaches : queue.reaches (Sink.capacityLeft sink) = true
    · rw [if_pos hreaches]
    · rw [if_neg hreaches] at hadded
      exact absurd hadded hnone

end Armed

theorem Armed.step {labels : List WakeLabel} {s t : UserQueue} {label : WakeLabel}
    (h : Armed (WakeLabel.pending labels) s) (step : WakeStep s label t) :
    Armed (WakeLabel.pending (labels ++ [label])) t := by
  cases step with
  | wake queue awakener =>
      have hwake : awakener.wake s
          = keventRegister awakener.selector.kq [UserQueue.wakeChange awakener.id] [] s := rfl
      rcases UserQueue.keventRegister_cases (UserQueue.adds_wakeChange awakener.id)
        awakener.selector.kq s with hok | ⟨err, herr⟩
      · rw [hwake, hok, WakeLabel.pending_snoc_of_wakes labels rfl rfl]
        exact h.woke awakener.id
      · rw [hwake, herr, WakeLabel.pending_snoc_of_quiet labels rfl rfl]
        exact h
  | @poll ES _ queue selector sink timeout =>
      rw [h.pending_snoc_poll]
      exact h.select selector (⟨sink, []⟩ : Tap ES) timeout
  | environment before after hfilter =>
      rw [WakeLabel.pending_snoc_of_quiet labels rfl rfl]
      obtain ⟨filter, hfilter', hrest⟩ := h
      exact ⟨filter, hfilter.trans hfilter', hrest⟩

/-- **The kqueue awakener neither loses nor invents a wake-up.** After the filter has been set up in
a kqueue without one, a poll that gets to it adds one event of it to the sink if a `wake` has
succeeded since the last report, with the id of the awakener that was the last to do so. Otherwise,
and if the poll does not get there, it adds none. -/
theorem kqueue_wake_ups {kernel queue : UserQueue} {selector : Selector} {id : Id}
    (hfilter : kernel.filter = none) (hsetup : selector.setupAwakener id kernel = (.ok (), queue))
    {before after : List WakeLabel} {delivered : List Kevent} {handed : List Event}
    {reached : Bool} {s : UserQueue}
    (run : Run WakeStep queue (before ++ .poll delivered handed reached :: after) s) :
    addedFor [userKey] delivered handed
      = (if reached then (WakeLabel.pending before).toList.map fun id => ⟨id, Ready.readable⟩
        else [] : List Event) := by
  obtain ⟨t, u, run, step⟩ := run.before_step
  have harmed : Armed (WakeLabel.pending before) t := by
    apply run.invariant (I := fun labels s => Armed (WakeLabel.pending labels) s)
    · rcases UserQueue.keventRegister_cases (UserQueue.adds_setupChange id) selector.kq kernel
        with hok | ⟨err, herr⟩
      · cases hsetup.symm.trans hok
        refine ⟨⟨⟨armedFlags, id.val⟩, false⟩, ?_, rfl, rfl⟩
        rw [hfilter]
        have htrigger : containsFlag (UserQueue.setupChange id).fflags noteTrigger = false :=
          (by decide : containsFlag 0 noteTrigger = false)
        rw [UserQueue.add, htrigger]
        rfl
      · cases hsetup.symm.trans herr
    · exact fun labels s label t h step => h.step step
  generalize hlabel : WakeLabel.poll delivered handed reached = label at step
  cases step with
  | poll queue selector sink timeout =>
      cases hlabel
      exact harmed.addedFor_select selector sink timeout
  | wake => cases hlabel
  | environment => cases hlabel

/-- Two clones wake, an event that is ahead of the filter fills the first sink, and the second poll
reports the wake-up. -/
theorem kqueue_wake_ups_after_full_sink :
    let queue := (Selector.setupAwakener ⟨3⟩ ⟨7⟩ UserQueue.empty).2
    let other : Kevent := newKevent 5 .read evAdd ⟨1⟩
    let woken := Knote.kevent ⟨armedFlags, 7⟩ userKey
    let labels : List WakeLabel :=
      [.wake ⟨⟨3⟩, ⟨7⟩⟩ (.ok ()), .wake ⟨⟨4⟩, ⟨7⟩⟩ (.ok ()), .environment,
        .poll [other] [⟨⟨1⟩, Ready.readable⟩] false,
        .poll [woken] [⟨⟨7⟩, Ready.readable⟩] true]
    (∃ s, Run WakeStep queue labels s)
      ∧ addedFor [userKey] [woken] [⟨⟨7⟩, Ready.readable⟩] = {⟨⟨7⟩, Ready.readable⟩} := by
  intro queue other woken labels
  have hsetup : Selector.setupAwakener ⟨3⟩ ⟨7⟩ UserQueue.empty = (.ok (), queue) :=
    Prod.ext (by decide +kernel) rfl
  let awoken := (Awakener.wake ⟨⟨4⟩, ⟨7⟩⟩ (Awakener.wake ⟨⟨3⟩, ⟨7⟩⟩ queue).2).2
  let busy : UserQueue :=
    { awoken with
      ahead := [other]
      behind := []
      others := by decide }
  let later := (Selector.select ⟨3⟩ (⟨⟨1, []⟩, []⟩ : Tap Bounded) none busy).2.1
  have hfirst : (Awakener.wake ⟨⟨3⟩, ⟨7⟩⟩ queue).1 = .ok () := by decide +kernel
  have hsecond : (Awakener.wake ⟨⟨4⟩, ⟨7⟩⟩ (Awakener.wake ⟨⟨3⟩, ⟨7⟩⟩ queue).2).1 = .ok () := by
    decide +kernel
  have hfull : busy.taken (Sink.capacityLeft (⟨1, []⟩ : Bounded)) = [other]
      ∧ busy.reaches (Sink.capacityLeft (⟨1, []⟩ : Bounded)) = false := by decide +kernel
  have hreport : later.taken (Sink.capacityLeft ([] : List Event)) = [woken]
      ∧ later.reaches (Sink.capacityLeft ([] : List Event)) = true := by decide +kernel
  have hlogs : (Selector.select ⟨3⟩ (⟨⟨1, []⟩, []⟩ : Tap Bounded) none busy).1.log
        = [⟨⟨1⟩, Ready.readable⟩]
      ∧ (Selector.select ⟨3⟩ (⟨[], []⟩ : Tap (List Event)) none later).1.log
        = [⟨⟨7⟩, Ready.readable⟩] := by decide +kernel
  have hwakes := (Run.nil.snoc (WakeStep.wake queue ⟨⟨3⟩, ⟨7⟩⟩)).snoc (.wake _ ⟨⟨4⟩, ⟨7⟩⟩)
  have hpoll := (hwakes.snoc (.environment _ busy rfl)).snoc (.poll _ ⟨3⟩ (⟨1, []⟩ : Bounded) none)
  have hrun := hpoll.snoc (.poll later ⟨3⟩ ([] : List Event) none)
  rw [hfirst, hsecond, hfull.1, hfull.2, hreport.1, hreport.2, hlogs.1, hlogs.2] at hrun
  have hfilter : UserQueue.empty.filter = none := rfl
  exact ⟨⟨_, hrun⟩, (kqueue_wake_ups hfilter hsetup hrun).trans (by decide +kernel)⟩

end Gaea.Sys.Kqueue
