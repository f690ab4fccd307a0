import Gaea.Library.Mailbox
import Gaea.Proof.AllOrNothing
import Gaea.Proof.EpollDelivery
import Gaea.Proof.SignalSets
import Gaea.Sys.SignalDelivery

/-!
# Signals are neither lost nor invented

To its user either handler is a mailbox that keeps one signal of a kind: a signal of the set that
has been raised is owed until a call of `receive` returns it. As long as signals are owed, a poll of
the queue that gets to the handler adds one event with its id to the sink. Once the handler has been
made no signal of the set acts on the process.
-/

namespace Gaea.Sys

open Transition Fallible Deliveries

/-- The steps of a run of a handler. A call of `receive` may go on reading after an interruption. -/
inductive SignalLabel (Error : Type) where
  | raise (rawSignal : Int32)
  | interrupted
  | received (outcome : Received Error)
  /-- The events that are added to the sink, and whether there is sure to be room for the handler. -/
  | poll (handed : List Event) (reached : Bool)
  | environment

namespace SignalLabel

variable {Error : Type} {signals : SignalSet}

def receives (signal : Signal) : SignalLabel Error → Bool
  | received (.returned (.ok (some taken))) => taken = signal
  | _ => false

/-- Raised, and not received since. -/
def Owed (labels : List (SignalLabel Error)) (signal : Signal) : Prop :=
  .raise signal.intoRaw ∈ since (receives signal) labels

/-- The event of a handler with this id. -/
def event (id : Id) : Event := ⟨id, Ready.readable⟩

/-- No assertion fails, and a poll adds no more than one event with the id of the handler. -/
def Proper (id : Id) : SignalLabel Error → Prop
  | received outcome => outcome ≠ .panicked
  | poll handed _ => handed.filter (Event.isOf id) = [] ∨ handed.filter (Event.isOf id) = [event id]
  | _ => True

/-- What the labels of a run say about the handler of a set of signals. -/
structure Faithful (id : Id) (signals : SignalSet) (labels : List (SignalLabel Error)) : Prop where
  proper : ∀ label ∈ labels, label.Proper id
  owed_of_some : ∀ before after signal,
    labels = before ++ .received (.returned (.ok (some signal))) :: after →
      signal ∈ signals.toList ∧ Owed before signal
  not_owed_of_none : ∀ before after, labels = before ++ .received (.returned (.ok none)) :: after →
    ∀ signal ∈ signals.toList, ¬ Owed before signal
  owed_of_handed : ∀ before after handed reached, labels = before ++ .poll handed reached :: after →
    event id ∈ handed → ∃ signal ∈ signals.toList, Owed before signal
  handed_of_owed : ∀ before after handed, labels = before ++ .poll handed true :: after →
    (∃ signal ∈ signals.toList, Owed before signal) → event id ∈ handed

/-- What a step is to the mailbox of the signals of a set. A poll looks into it if it gets there, or
has an event to show. -/
def toMailbox (id : Id) (signals : SignalSet) : SignalLabel Error → Mailbox.Label Signal
  | raise rawSignal =>
      match Signal.fromRaw rawSignal with
      | some signal => if signal ∈ signals.toList then .post signal else .other
      | none => .other
  | received (.returned (.ok (some signal))) => .take signal
  | received (.returned (.ok none)) => .nothing
  | poll handed reached =>
      if reached || decide (event id ∈ handed) then .look (event id ∈ handed) else .other
  | _ => .other

variable {id : Id}

theorem toMailbox_eq_post_iff {label : SignalLabel Error} {signal : Signal} :
    label.toMailbox id signals = .post signal
      ↔ label = .raise signal.intoRaw ∧ signal ∈ signals.toList := by
  cases label with
  | raise rawSignal =>
      rw [SignalLabel.raise.injEq, ← Signal.fromRaw_eq_some_iff, toMailbox]
      cases Signal.fromRaw rawSignal with
      | none => simp
      | some raised =>
          by_cases hmem : raised ∈ signals.toList
          · simp only [hmem, if_true, Mailbox.Label.post.injEq, Option.some.injEq]
            exact ⟨fun heq => ⟨heq, heq ▸ hmem⟩, And.left⟩
          · simp only [hmem, if_false, Option.some.injEq]
            exact iff_of_false nofun fun h => hmem (h.1 ▸ h.2)
  | received outcome =>
      refine iff_of_false ?_ nofun
      rcases outcome with _ | (err | _ | taken) <;> nofun
  | poll handed reached =>
      refine iff_of_false ?_ nofun
      rw [toMailbox]
      split <;> nofun
  | interrupted | environment => exact iff_of_false nofun nofun

/-- A raised signal is a letter, if it is one of the set. -/
theorem toMailbox_raise_cases (id : Id) (signals : SignalSet) (rawSignal : Int32) :
    (∃ signal ∈ signals.toList, rawSignal = signal.intoRaw
        ∧ (raise rawSignal : SignalLabel Error).toMailbox id signals = .post signal)
      ∨ ((∀ signal ∈ signals.toList, rawSignal ≠ signal.intoRaw)
        ∧ (raise rawSignal : SignalLabel Error).toMailbox id signals = .other) := by
  by_cases hraw : ∃ signal ∈ signals.toList, rawSignal = signal.intoRaw
  · obtain ⟨signal, hmem, rfl⟩ := hraw
    exact Or.inl ⟨signal, hmem, rfl, toMailbox_eq_post_iff.mpr ⟨rfl, hmem⟩⟩
  · have hnone : ∀ signal ∈ signals.toList, rawSignal ≠ signal.intoRaw :=
      fun signal hmem heq => hraw ⟨signal, hmem, heq⟩
    refine Or.inr ⟨hnone, ?_⟩
    rw [toMailbox]
    split
    · rename_i signal hsome
      exact if_neg fun hmem => hnone signal hmem (Signal.fromRaw_eq_some_iff.mp hsome)
    · rfl

theorem takes_toMailbox (signal : Signal) (label : SignalLabel Error) :
    (label.toMailbox id signals).takes signal = label.receives signal := by
  cases label with
  | raise rawSignal =>
      rw [toMailbox]
      split
      · split <;> rfl
      · rfl
  | received outcome => rcases outcome with _ | (err | _ | taken) <;> rfl
  | poll handed reached =>
      rw [toMailbox]
      split <;> rfl
  | interrupted | environment => rfl

theorem owed_toMailbox {labels : List (SignalLabel Error)} {signal : Signal} :
    Mailbox.Owed (labels.map (toMailbox id signals)) signal
      ↔ signal ∈ signals.toList ∧ Owed labels signal := by
  have htakes : Mailbox.Label.takes signal ∘ toMailbox id signals
      = (receives signal : SignalLabel Error → Bool) := funext (takes_toMailbox signal)
  rw [Mailbox.Owed, since_map, htakes, List.mem_map, Owed]
  constructor
  · rintro ⟨label, hmem, heq⟩
    obtain ⟨rfl, hsignal⟩ := toMailbox_eq_post_iff.mp heq
    exact ⟨hsignal, hmem⟩
  · rintro ⟨hsignal, hmem⟩
    exact ⟨_, hmem, toMailbox_eq_post_iff.mpr ⟨rfl, hsignal⟩⟩

theorem faithful_of_mailbox {labels : List (SignalLabel Error)} {owed : Set Signal}
    (hproper : ∀ label ∈ labels, label.Proper id)
    (run : Run Mailbox.Step ∅ (labels.map (toMailbox id signals)) owed) :
    Faithful id signals labels := by
  have hstep (before after : List (SignalLabel Error)) (label : SignalLabel Error)
      (hlabels : labels = before ++ label :: after) := by
    rw [hlabels, List.map_append, List.map_cons] at run
    exact Mailbox.owed_of_run run
  have hlook (before after : List (SignalLabel Error)) (handed : List Event) (reached : Bool)
      (hlabels : labels = before ++ .poll handed reached :: after)
      (hlooks : (reached || decide (event id ∈ handed)) = true) :
      event id ∈ handed ↔ ∃ signal ∈ signals.toList, Owed before signal := by
    have hfound := (hstep before after _ hlabels).2.2 _ (if_pos hlooks)
    rw [decide_eq_true_iff] at hfound
    exact hfound.trans (exists_congr fun signal => owed_toMailbox)
  constructor
  · exact hproper
  · intro before after signal hlabels
    exact owed_toMailbox.mp ((hstep before after _ hlabels).1 signal rfl)
  · intro before after hlabels signal hmem howed
    exact (hstep before after _ hlabels).2.1 rfl signal (owed_toMailbox.mpr ⟨hmem, howed⟩)
  · intro before after handed reached hlabels hmem
    exact (hlook before after handed reached hlabels (by simp [hmem])).mp hmem
  · intro before after handed hlabels howed
    exact (hlook before after handed true hlabels rfl).mpr howed

/-- A system whose steps are proper, and steps of the mailbox, is faithful. -/
theorem faithful_of_run {State : Type} {Step : State → SignalLabel Error → State → Prop}
    {Good : State → Prop} (owed : State → Set Signal)
    (hstep : ∀ s label t, Good s → Step s label t →
      Good t ∧ label.Proper id ∧ Mailbox.Step (owed s) (label.toMailbox id signals) (owed t))
    {init s : State} (hinit : Good init) (hempty : owed init = ∅)
    {labels : List (SignalLabel Error)} (run : Run Step init labels s) :
    Faithful id signals labels ∧ Good s := by
  obtain ⟨hs, hmailbox⟩ := run.map_of_invariant Good owed (toMailbox id signals) hinit
    fun s label t hs step => ⟨(hstep s label t hs step).1, (hstep s label t hs step).2.2⟩
  have hproper : Good s ∧ ∀ label ∈ labels, label.Proper id := by
    apply run.invariant (I := fun labels s => Good s ∧ ∀ label ∈ labels, label.Proper id)
    · exact ⟨hinit, nofun⟩
    · rintro labels s label t ⟨hs, hlabels⟩ step
      obtain ⟨ht, hlabel, -⟩ := hstep s label t hs step
      exact ⟨ht, List.forall_mem_append.mpr ⟨hlabels, List.forall_mem_singleton.mpr hlabel⟩⟩
  rw [hempty] at hmailbox
  exact ⟨faithful_of_mailbox hproper.2 hmailbox, hs⟩

/-- A poll that delivers the event of the handler is a step of the mailbox. -/
theorem step_poll {owed : Set Signal} {handed : List Event} {present reached : Bool}
    (h : Delivered (Event.isOf id) (event id) present reached handed)
    (hpresent : present = true ↔ owed.Nonempty) :
    Mailbox.Step owed ((.poll handed reached : SignalLabel Error).toMailbox id signals) owed := by
  rw [toMailbox]
  split
  · rename_i hlooks
    refine .look _ _ (decide_eq_true_iff.trans ?_)
    rw [← hpresent]
    refine ⟨h.present_of_mem, fun htrue => ?_⟩
    rcases Bool.or_eq_true_iff.mp hlooks with hreached | hmem
    · exact h.mem_of_reached htrue hreached
    · exact of_decide_eq_true hmem
  · exact .other _

end SignalLabel

/-! ## Blocked signals -/

/-- The signals of the set are blocked, and none of them has acted on the process. -/
structure SignalState.Guards (signals : SignalSet) (state : SignalState) : Prop where
  mask : ∀ signal ∈ signals.toList, state.mask signal.intoRaw = true
  acted : ∀ signal ∈ signals.toList, signal.intoRaw ∉ state.acted

theorem SignalState.Guards.raise {signals : SignalSet} {state : SignalState}
    (h : state.Guards signals) (rawSignal : Int32) : (state.raise rawSignal).Guards signals := by
  unfold SignalState.raise
  split
  · exact ⟨h.mask, h.acted⟩
  · rename_i hmask
    refine ⟨h.mask, fun signal hmem hacted => ?_⟩
    rcases List.mem_append.mp hacted with hacted | hacted
    · exact h.acted signal hmem hacted
    · rw [← List.mem_singleton.mp hacted] at hmask
      exact hmask (h.mask signal hmem)

theorem SignalState.guards_new {signals : SignalSet} {mask : Int32 → Bool}
    (h : ∀ signal ∈ signals.toList, mask signal.intoRaw = true) :
    (SignalState.new mask).Guards signals :=
  ⟨h, fun _ _ => List.not_mem_nil⟩

section New

variable {Q : Type}

theorem queue_setQueue {process : Process Q} {fd : RawFd} {queue : Q}
    (hqueue : process.queue fd = some queue) (after : Q) :
    (process.setQueue fd after).queue fd = some after := by
  obtain ⟨file, hfile, -⟩ := Option.bind_eq_some_iff.mp hqueue
  rw [Process.setQueue_of_some hfile, Process.queue, hfile]
  exact Function.update_self _ _ _

/-- A selector that is found after a file has been opened was there before. -/
theorem queue_of_openFile {process : Process Q} {fd fd' : RawFd} {queue : Q}
    (h : (process.openFile fd none).queue fd' = some queue) : process.queue fd' = some queue := by
  obtain ⟨file, hfile, hqueue⟩ := Option.bind_eq_some_iff.mp h
  by_cases heq : fd' = fd
  · subst heq
    have hself : (process.openFile fd' none).files fd' = some process.nextFile :=
      Function.update_self _ _ _
    have hnone : (process.openFile fd' none).queues process.nextFile = none :=
      Function.update_self _ _ _
    rw [← Option.some.inj (hself.symm.trans hfile), hnone] at hqueue
    cases hqueue
  · have hfile : process.files fd' = some file := (Function.update_of_ne heq _ _).symm.trans hfile
    have hne := (process.files_lt fd' file hfile).ne
    exact Option.bind_eq_some_iff.mpr
      ⟨file, hfile, (Function.update_of_ne hne _ _).symm.trans hqueue⟩

theorem ensures_blockSignals (set : List Int32) (process : Process Q) :
    Ensures (fun _ after => (∀ rawSignal ∈ set, after.mask rawSignal = true)
        ∧ ∃ mask, after = { process with mask }) (blockSignals set) process := by
  intro _ after hrun
  cases hmask : process.answers.errno .sigprocmask with
  | none =>
      rw [blockSignals_of_none hmask] at hrun
      obtain rfl := (Prod.mk.inj hrun).2
      exact ⟨fun rawSignal hmem => by simp [hmem], _, rfl⟩
  | some errno =>
      rw [blockSignals_of_some hmask] at hrun
      cases hrun

end New

theorem Signal.intoRaw_injective : Function.Injective Signal.intoRaw := by
  intro first second h
  cases first <;> cases second <;> first | rfl | cases h

/-! ## On signalfd -/

namespace Signalfd

def sigset (signals : SignalSet) : List Int32 := signals.toList.map Signal.intoRaw

/-- Signals may be raised at any time, and the environment may register other handles, under other
ids. -/
inductive Step (queue : OsQueue Epoll.Selector) (handler : Signals) (id : Id) :
    World → SignalLabel ErrorKind → World → Prop where
  | raise (s : World) (rawSignal : Int32) :
      Step queue handler id s (.raise rawSignal) { s with signals := s.signals.raise rawSignal }
  | interrupted (s : World) (after : SignalState) (answer : ReadAnswer)
      (hread : Read s.set s.signals answer after) (hloop : Signals.receive answer = none) :
      Step queue handler id s .interrupted { s with signals := after }
  | received (s : World) (after : SignalState) (answer : ReadAnswer)
      (hread : Read s.set s.signals answer after) (outcome : Received ErrorKind)
      (hreturn : Signals.receive answer = some outcome) :
      Step queue handler id s (.received outcome) { s with signals := after }
  | poll (s : World) {ES : Type} [Sink ES] (sink : ES) (timeout : Option Duration)
      (scan : Scan (RawFd × UInt32))
      (hothers : ∀ ready ∈ scan.ahead ++ scan.behind, ready.1 ≠ handler.fd)
      (polled : Polled (OsQueue Epoll.Selector) (Tap ES) IoError Epoll.Instance)
      (hpolled : polled = queue.blockingPoll ⟨sink, []⟩ timeout (s.scanned handler.fd scan)) :
      Step queue handler id s
        (.poll polled.sink.log
          (s.queue.waitError.isNone && scan.reaches (Sink.capacityLeft sink)))
        { s with queue := polled.world }
  | environment (s : World) (after : Epoll.Instance)
      (hentry : after.table.entries handler.fd = s.queue.table.entries handler.fd)
      (hsole : ∀ fd given, after.table.entries fd = some given → given.u64 = id.val →
        fd = handler.fd) :
      Step queue handler id s .environment { s with queue := after }

/-- The signals of the set that are pending. -/
def owed (signals : SignalSet) (state : SignalState) : Set Signal :=
  {signal | signal ∈ signals.toList ∧ state.pending signal.intoRaw = true}

theorem owed_raise {signals : SignalSet} {state : SignalState} (h : state.Guards signals)
    (id : Id) (rawSignal : Int32) :
    Mailbox.Step (owed signals state)
      ((.raise rawSignal : SignalLabel ErrorKind).toMailbox id signals)
      (owed signals (state.raise rawSignal)) := by
  rcases SignalLabel.toMailbox_raise_cases id signals rawSignal with
    ⟨signal, hmem, rfl, hlabel⟩ | ⟨hnone, hlabel⟩
  · have howed : owed signals (state.raise signal.intoRaw)
        = insert signal (owed signals state) := by
      rw [SignalState.raise, if_pos (h.mask signal hmem)]
      ext other
      by_cases heq : other = signal
      · subst heq
        simp [owed, hmem]
      · have hne : other.intoRaw ≠ signal.intoRaw := fun hraw => heq (Signal.intoRaw_injective hraw)
        simp [owed, heq, Function.update_of_ne hne]
    rw [hlabel, howed]
    exact .post _ signal
  · have howed : owed signals (state.raise rawSignal) = owed signals state := by
      ext signal
      refine and_congr_right fun hmem => ?_
      unfold SignalState.raise
      split
      · dsimp only
        rw [Function.update_of_ne (hnone signal hmem).symm]
      · rfl
    rw [hlabel, howed]
    exact .other _

theorem toInt32_toUInt32 (rawSignal : Int32) : rawSignal.toUInt32.toInt32 = rawSignal := by
  simp

/-- A read takes a signal of the set that is pending, or finds none, or fails and takes nothing. -/
theorem owed_read {signals : SignalSet} {state after : SignalState} {answer : ReadAnswer}
    (hread : Read (sigset signals) state answer after) :
    (∃ signal ∈ owed signals state, Signals.receive answer = some (.returned (.ok (some signal)))
        ∧ owed signals after = owed signals state \ {signal})
      ∨ (owed signals state = ∅ ∧ after = state
        ∧ Signals.receive answer = some (.returned (.ok none)))
      ∨ (after = state ∧ (Signals.receive answer = none
        ∨ ∃ err, Signals.receive answer = some (.returned (.error err)))) := by
  cases hread with
  | ready rawSignal hmem hpending =>
      obtain ⟨signal, hsignal, rfl⟩ := List.mem_map.mp hmem
      refine Or.inl ⟨signal, ⟨hsignal, hpending⟩, ?_, ?_⟩
      · rw [Signals.receive, if_pos rfl, toInt32_toUInt32, Signal.fromRaw_eq_some_iff.mpr rfl]
      · ext other
        by_cases heq : other = signal
        · subst heq
          simp [owed, SignalState.dequeue]
        · have hne : other.intoRaw ≠ signal.intoRaw :=
            fun hraw => heq (Signal.intoRaw_injective hraw)
          simp [owed, SignalState.dequeue, heq, Function.update_of_ne hne]
  | wouldBlock hnone =>
      refine Or.inr (Or.inl ⟨?_, rfl, rfl⟩)
      rw [Set.eq_empty_iff_forall_notMem]
      rintro signal ⟨hmem, hpending⟩
      rw [hnone _ (List.mem_map_of_mem hmem)] at hpending
      cases hpending
  | error err hblock =>
      refine Or.inr (Or.inr ⟨rfl, ?_⟩)
      cases err with
      | wouldBlock => exact absurd rfl hblock
      | interrupted => exact Or.inl rfl
      | other code => exact Or.inr ⟨_, rfl⟩

theorem readable_iff (signals : SignalSet) (state : SignalState) :
    readable (sigset signals) state = true ↔ (owed signals state).Nonempty := by
  rw [readable, sigset, List.any_map, List.any_eq_true]
  rfl

theorem Read.guards {signals : SignalSet} {set : List Int32} {state after : SignalState}
    {answer : ReadAnswer} (hread : Read set state answer after) (h : state.Guards signals) :
    after.Guards signals := by
  cases hread with
  | ready => exact ⟨h.mask, h.acted⟩
  | wouldBlock => exact h
  | error => exact h

/-- How a handler is registered with the queue. -/
def handlerEntry (id : Id) : Epoll.EpollEvent :=
  Epoll.newEpollEvent Interests.readable RegisterOption.level id

/-- What is kept of a handler: its signals are blocked and are the ones that it reads, and it is the
one handle that is registered under its id. -/
structure World.Good (handler : Signals) (id : Id) (signals : SignalSet) (s : World) : Prop where
  guards : s.signals.Guards signals
  set_eq : s.set = sigset signals
  sole : s.queue.table.Sole handler.fd (handlerEntry id)

section Step

variable {queue : OsQueue Epoll.Selector} {handler : Signals} {id : Id} {signals : SignalSet}

/-- The registration is level-triggered, so an edge does not matter. -/
theorem World.Good.triggers_eq {s : World} (h : s.Good handler id signals) (edge : Bool) :
    s.triggers handler.fd edge = readable s.set s.signals := by
  have hlevel : Epoll.containsFlag (handlerEntry id).events Epoll.epollEt = false :=
    (by decide : Epoll.containsFlag (Epoll.toEpollEvents Interests.readable RegisterOption.level)
      Epoll.epollEt = false)
  rw [World.triggers, h.sole.entry]
  simp [hlevel]

theorem epEventToEvent_handlerEntry (id : Id) :
    Epoll.epEventToEvent ⟨Epoll.epollIn &&& (handlerEntry id).mask, (handlerEntry id).u64⟩
      = SignalLabel.event id := by
  have hbits : Epoll.epollIn &&& (handlerEntry id).mask = Epoll.epollIn :=
    (by decide : Epoll.epollIn &&& Epoll.EpollEvent.mask
      ⟨Epoll.toEpollEvents Interests.readable RegisterOption.level, 0⟩ = Epoll.epollIn)
  rw [hbits]
  exact Epoll.epEventToEvent_epollIn id

theorem World.Good.poll {s : World} (h : s.Good handler id signals) {ES : Type} [Sink ES]
    (sink : ES) (timeout : Option Duration) (scan : Scan (RawFd × UInt32))
    (hothers : ∀ ready ∈ scan.ahead ++ scan.behind, ready.1 ≠ handler.fd) :
    let polled : Polled (OsQueue Epoll.Selector) (Tap ES) IoError Epoll.Instance :=
      queue.blockingPoll ⟨sink, []⟩ timeout (s.scanned handler.fd scan)
    Delivered (Event.isOf id) (SignalLabel.event id) (readable s.set s.signals)
        (s.queue.waitError.isNone && scan.reaches (Sink.capacityLeft sink)) polled.sink.log
      ∧ polled.world.table.Sole handler.fd (handlerEntry id) := by
  have honeshot : Epoll.containsFlag (handlerEntry id).events Epoll.epollOneshot = false :=
    (by decide : Epoll.containsFlag (Epoll.toEpollEvents Interests.readable RegisterOption.level)
      Epoll.epollOneshot = false)
  have hbits : Epoll.epollIn &&& (handlerEntry id).mask ≠ 0 :=
    (by decide : Epoll.epollIn &&& Epoll.EpollEvent.mask
      ⟨Epoll.toEpollEvents Interests.readable RegisterOption.level, 0⟩ ≠ 0)
  have hready : (s.scanned handler.fd scan).ready = scan.ready (handler.fd, Epoll.epollIn)
      (readable s.set s.signals) := by
    rw [← h.triggers_eq scan.edge]
    rfl
  have hsole : (s.scanned handler.fd scan).table.Sole handler.fd (handlerEntry id) := h.sole
  have hselect := Epoll.delivered_select hsole honeshot hbits hready hothers queue.selector sink
    timeout
  rw [epEventToEvent_handlerEntry] at hselect
  exact hselect

theorem Step.simulates {s t : World} {label : SignalLabel ErrorKind}
    (h : s.Good handler id signals) (step : Step queue handler id s label t) :
    t.Good handler id signals ∧ label.Proper id
      ∧ Mailbox.Step (owed signals s.signals) (label.toMailbox id signals)
        (owed signals t.signals) := by
  cases step with
  | raise rawSignal =>
      exact ⟨⟨h.guards.raise rawSignal, h.set_eq, h.sole⟩, trivial,
        owed_raise h.guards id rawSignal⟩
  | interrupted after answer hread hloop =>
      refine ⟨⟨hread.guards h.guards, h.set_eq, h.sole⟩, trivial, ?_⟩
      rw [h.set_eq] at hread
      rcases owed_read hread with ⟨signal, -, hreceive, -⟩ | ⟨-, -, hreceive⟩ | ⟨rfl, -⟩
      · cases hloop.symm.trans hreceive
      · cases hloop.symm.trans hreceive
      · exact .other _
  | received after answer hread outcome hreturn =>
      refine ⟨⟨hread.guards h.guards, h.set_eq, h.sole⟩, ?_⟩
      rw [h.set_eq] at hread
      rcases owed_read hread with ⟨signal, hmem, hreceive, howed⟩ | ⟨hempty, rfl, hreceive⟩
        | ⟨rfl, hreceive | ⟨err, hreceive⟩⟩
      · cases hreturn.symm.trans hreceive
        rw [howed]
        exact ⟨nofun, .take _ signal hmem⟩
      · cases hreturn.symm.trans hreceive
        rw [hempty]
        exact ⟨nofun, .nothing⟩
      · cases hreturn.symm.trans hreceive
      · cases hreturn.symm.trans hreceive
        exact ⟨nofun, .other _⟩
  | poll sink timeout scan hothers polled hpolled =>
      subst hpolled
      obtain ⟨hdelivered, hsole⟩ := h.poll sink timeout scan hothers
      refine ⟨⟨h.guards, h.set_eq, hsole⟩, hdelivered.once, SignalLabel.step_poll hdelivered ?_⟩
      rw [h.set_eq]
      exact readable_iff signals s.signals
  | environment after hentry hsole =>
      exact ⟨⟨h.guards, h.set_eq, hentry.trans h.sole.entry, hsole⟩, trivial, .other _⟩

end Step

/-! ## A handler that has been made -/

/-- The descriptor of a handler is open for a set of signals, and is no selector. -/
theorem ensures_signalfd (set : List Int32) (epfd : RawFd) (process : Process Epoll.Table) :
    Ensures (fun fd after => after.sigset fd = some set
        ∧ ∀ table, after.queue epfd = some table → process.queue epfd = some table)
      (signalfd set) process := by
  intro fd after hrun
  cases halloc : process.answers.alloc process.files with
  | error err => cases hrun.symm.trans (bind_of_error (openFile_of_error halloc none))
  | ok fresh =>
      rw [signalfd_of_ok (openFile_of_ok halloc none)] at hrun
      obtain ⟨hfd, rfl⟩ := Prod.mk.inj hrun
      obtain rfl := Except.ok.inj hfd
      have hfile : (process.openFile fresh none).files fresh = some process.nextFile :=
        Function.update_self _ _ _
      rw [Process.setSigset, hfile]
      refine ⟨?_, fun table htable => queue_of_openFile htable⟩
      rw [Process.sigset, hfile]
      exact Function.update_self _ _ _

/-- What a successful `epoll_ctl` has done to the process. -/
theorem register_of_ok {selector : Epoll.Selector} {fd : RawFd} {id : Id}
    {process after : Process Epoll.Table}
    (h : of (selector.register fd id Interests.readable RegisterOption.level) process
      = (.ok (), after)) :
    ∃ table, process.queue selector.epfd = some table
      ∧ after = process.setQueue selector.epfd
        ⟨Function.update table.entries fd (some (handlerEntry id))⟩ := by
  have hrun : Epoll.epollCtl selector.epfd .add fd (some (handlerEntry id)) process
      = (.ok (), after) := h
  cases herrno : process.answers.errno (.epollCtl selector.epfd fd) with
  | some errno => simp [Epoll.epollCtl, Epoll.Kernel.epollCtl, herrno] at hrun
  | none =>
      cases hqueue : process.queue selector.epfd with
      | none => simp [Epoll.epollCtl, Epoll.Kernel.epollCtl, herrno, hqueue] at hrun
      | some table =>
          by_cases haccepts : table.accepts .add fd = true
          · simp [Epoll.epollCtl, Epoll.Kernel.epollCtl, herrno, hqueue, Epoll.Table.ctl, haccepts,
              Epoll.Table.entry] at hrun
            exact ⟨table, rfl, hrun.symm⟩
          · simp [Epoll.epollCtl, Epoll.Kernel.epollCtl, herrno, hqueue, Epoll.Table.ctl, haccepts]
              at hrun

/-- What has become of a process in which a handler has been made. -/
structure Installed (selector : Epoll.Selector) (id : Id) (signals : SignalSet) (handler : Signals)
    (process : Process Epoll.Table) : Prop where
  mask : ∀ signal ∈ signals.toList, process.mask signal.intoRaw = true
  sigset_eq : process.sigset handler.fd = some (sigset signals)
  registered : ∃ table, process.queue selector.epfd = some table
    ∧ table.Sole handler.fd (handlerEntry id)

theorem ensures_new {selector : Epoll.Selector} {signals : SignalSet} {id : Id}
    {process : Process Epoll.Table}
    (hsole : ∀ table, process.queue selector.epfd = some table →
      ∀ fd given, table.entries fd = some given → given.u64 ≠ id.val) :
    Ensures (Installed selector id signals) (Signals.new selector signals id) process := by
  unfold Signals.new
  rcases createSigset_cases signals process with ⟨-, hset⟩ | ⟨-, err, hset⟩
  · intro handler after hrun
    rw [bind_of_ok hset] at hrun
    refine Ensures.bind (ensures_signalfd (sigset signals) selector.epfd process)
      (fun fd opened hopened => ?_) handler after hrun
    obtain ⟨hsigset, hqueue⟩ := hopened
    refine Ensures.bind (P := fun _ between => between.sigset fd = some (sigset signals)
      ∧ ∃ table, between.queue selector.epfd = some table ∧ table.Sole fd (handlerEntry id)) ?_ ?_
    · intro _ between hregister
      obtain ⟨table, htable, rfl⟩ := register_of_ok hregister
      refine ⟨?_, _, queue_setQueue htable _, Function.update_self _ _ _, fun fd' given h hid => ?_⟩
      · obtain ⟨queues, hqueues⟩ := opened.exists_setQueue selector.epfd
          ⟨Function.update table.entries fd (some (handlerEntry id))⟩
        rw [hqueues]
        exact hsigset
      · by_contra hne
        have hgiven : table.entries fd' = some given := (Function.update_of_ne hne _ _).symm.trans h
        exact hsole table (hqueue table htable) fd' given hgiven hid
    · intro _ between hbetween
      refine (ensures_blockSignals (sigset signals) between).bind fun _ later hlater =>
        ensures_pure ?_
      obtain ⟨hmask, mask, rfl⟩ := hlater
      exact ⟨fun signal hmem => hmask _ (List.mem_map_of_mem hmem), hbetween.1, hbetween.2⟩
  · intro handler after hrun
    rw [bind_of_error hset] at hrun
    cases hrun

/-- **A `signalfd` neither loses nor invents a signal.** A handler has been made for a queue in which
no handle has its id. Its descriptor is open for the set of its signals, and every run that starts
when none of these is pending, of raised signals, reads that may be interrupted or fail, and polls
of the queue is faithful. No signal of the set acts on the process. -/
theorem signalfd_faithful {selector : Epoll.Selector} {signals : SignalSet} {id : Id}
    {process after : Process Epoll.Table} {handler : Signals}
    (hsole : ∀ table, process.queue selector.epfd = some table →
      ∀ fd given, table.entries fd = some given → given.u64 ≠ id.val)
    (hnew : Signals.new selector signals id process = (.ok handler, after)) :
    ∃ set table, after.sigset handler.fd = some set ∧ after.queue selector.epfd = some table
      ∧ ∀ labels s, Run (Step ⟨selector⟩ handler id)
          ⟨SignalState.new after.mask, set, ⟨table, [], none⟩⟩ labels s →
        SignalLabel.Faithful id signals labels
          ∧ ∀ signal ∈ signals.toList, signal.intoRaw ∉ s.signals.acted := by
  obtain ⟨hmask, hset, table, htable, hentry⟩ := ensures_new hsole handler after hnew
  refine ⟨_, table, hset, htable, fun labels s run => ?_⟩
  have hgood : World.Good handler id signals
      ⟨SignalState.new after.mask, sigset signals, ⟨table, [], none⟩⟩ :=
    ⟨SignalState.guards_new hmask, rfl, hentry⟩
  have hempty : owed signals (SignalState.new after.mask) = ∅ :=
    Set.eq_empty_iff_forall_notMem.mpr fun signal h => Bool.false_ne_true h.2
  obtain ⟨hfaithful, hs⟩ := SignalLabel.faithful_of_run (fun s : World => owed signals s.signals)
    (fun s label t h step => Step.simulates h step) hgood hempty run
  exact ⟨hfaithful, hs.guards.acted⟩

/-- A signal that is raised twice before it is received, after an interruption, is received once, and
polls find it until then. -/
theorem signalfd_faithful_raised_twice :
    let empty := Epoll.Table.empty
    let process := (Process.new ⟨firstClosed [3, 4], fun _ => none, 115, empty⟩).openFile 3
      (some empty)
    let after := (Signals.new ⟨3⟩ SignalSet.all ⟨1⟩ process).2
    let labels : List (SignalLabel ErrorKind) :=
      [.raise 2, .raise 2, .poll [⟨⟨1⟩, Ready.readable⟩] true, .interrupted,
        .received (.returned (.ok (some .interrupt))), .poll [] true,
        .received (.returned (.ok none))]
    ∃ set table s, after.sigset 4 = some set ∧ after.queue 3 = some table
      ∧ Run (Step ⟨⟨3⟩⟩ ⟨4⟩ ⟨1⟩) ⟨SignalState.new after.mask, set, ⟨table, [], none⟩⟩ labels s
      ∧ SignalLabel.Faithful ⟨1⟩ SignalSet.all labels := by
  intro empty process after labels
  have hnew : Signals.new ⟨3⟩ SignalSet.all ⟨1⟩ process = (.ok ⟨4⟩, after) :=
    Prod.ext (by decide +kernel) rfl
  have hnone (table : Epoll.Table) (htable : process.queue 3 = some table) (fd : RawFd)
      (given : Epoll.EpollEvent) (h : table.entries fd = some given) : given.u64 ≠ 1 := by
    obtain rfl : empty = table := Option.some.inj htable
    exact absurd h (Option.some_ne_none given).symm
  obtain ⟨set, table', hset', htable', hfaithful⟩ := signalfd_faithful hnone hnew
  let table := (after.queue 3).getD empty
  have hset : after.sigset 4 = some (sigset SignalSet.all) := by decide +kernel
  have htable : after.queue 3 = some table := by
    rw [← Option.some_get (by decide +kernel : (after.queue 3).isSome = true), Option.get_eq_getD]
  obtain rfl : sigset SignalSet.all = set := Option.some.inj (hset.symm.trans hset')
  obtain rfl : table = table' := Option.some.inj (htable.symm.trans htable')
  let state := ((SignalState.new after.mask).raise 2).raise 2
  have hpending : (2 : Int32) ∈ sigset SignalSet.all ∧ state.pending 2 = true := by decide +kernel
  have hquiet : (sigset SignalSet.all).any (state.dequeue 2).pending = false := by decide +kernel
  let raised : World := ⟨state, sigset SignalSet.all, ⟨table, [], none⟩⟩
  let scan : Scan (RawFd × UInt32) := ⟨[], [], false⟩
  obtain ⟨first, hfirst⟩ : ∃ polled : Polled (OsQueue Epoll.Selector) (Tap (List Event)) IoError
      Epoll.Instance, polled = OsQueue.blockingPoll ⟨⟨3⟩⟩ ⟨[], []⟩ none (raised.scanned 4 scan) :=
    ⟨_, rfl⟩
  let received : World := ⟨state.dequeue 2, sigset SignalSet.all, first.world⟩
  obtain ⟨second, hsecond⟩ : ∃ polled : Polled (OsQueue Epoll.Selector) (Tap (List Event)) IoError
      Epoll.Instance, polled = OsQueue.blockingPoll ⟨⟨3⟩⟩ ⟨[], []⟩ none (received.scanned 4 scan) :=
    ⟨_, rfl⟩
  have hlogs : first.sink.log = [⟨⟨1⟩, Ready.readable⟩] ∧ second.sink.log = [] := by
    subst hfirst hsecond
    decide +kernel
  have hreached : (raised.queue.waitError.isNone
        && scan.reaches (Sink.capacityLeft ([] : List Event))) = true
      ∧ (received.queue.waitError.isNone
        && scan.reaches (Sink.capacityLeft ([] : List Event))) = true := by
    subst hfirst
    decide +kernel
  have hraise := (Run.nil.snoc (@Step.raise ⟨⟨3⟩⟩ ⟨4⟩ ⟨1⟩
    ⟨SignalState.new after.mask, sigset SignalSet.all, ⟨table, [], none⟩⟩ 2)).snoc (.raise _ 2)
  have hpoll := hraise.snoc (.poll raised ([] : List Event) none scan nofun first hfirst)
  have hinterrupted := hpoll.snoc (.interrupted _ _ (.error .interrupted) (.error _ _ nofun) rfl)
  have hreceived := hinterrupted.snoc
    (.received _ _ _ (.ready _ 2 hpending.1 hpending.2) (.returned (.ok (some .interrupt))) rfl)
  have hagain := hreceived.snoc (.poll received ([] : List Event) none scan nofun second hsecond)
  have hnone := hagain.snoc
    (.received _ _ (.error .wouldBlock) (.wouldBlock _ fun rawSignal hmem =>
      Bool.eq_false_iff.mpr (List.any_eq_false.mp hquiet rawSignal hmem)) _ rfl)
  rw [hlogs.1, hlogs.2, hreached.1, hreached.2] at hnone
  exact ⟨_, table, _, hset, htable, hnone, (hfaithful labels _ hnone).1⟩

end Signalfd

end Gaea.Sys
