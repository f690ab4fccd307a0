import Gaea.Proof.KqueueOneshot
import Gaea.Proof.SignalDelivery

/-!
# Signals on kqueue

The handler has a kqueue of its own, with a filter for each signal of its set. The filter fires once
however often its signal is raised, and the event says which signal it was. This kqueue is
registered with the one of the queue, where it is readable as long as its filters are going to fire.
-/

namespace Gaea.Sys.Kqueue

open Transition Fallible Deliveries

/-- Signals may be raised at any time. The environment may change the order of the events, and
whether calls fail, and may register other handles with the queue, under other ids. -/
inductive SignalStep (queue : OsQueue Selector) (handler : Signals) (id : Id) :
    World → SignalLabel IoError → World → Prop where
  | raise (s : World) (rawSignal : Int32) :
      SignalStep queue handler id s (.raise rawSignal)
        { s with
          signals := s.signals.raise rawSignal
          kqueue := s.kqueue.raise rawSignal }
  | received (s : World) :
      SignalStep queue handler id s (.received (handler.receive s.kqueue).1)
        { s with kqueue := (handler.receive s.kqueue).2 }
  | poll (s : World) {ES : Type} [Sink ES] (sink : ES) (timeout : Option Duration)
      (scan : Scan Key) (hothers : ∀ key ∈ scan.ahead ++ scan.behind, key ≠ kqueueKey handler.kq.kq)
      (polled : Polled (OsQueue Selector) (Tap ES) IoError KernelQueue)
      (hpolled : polled = queue.blockingPoll ⟨sink, []⟩ timeout (s.scanned handler.kq.kq scan)) :
      SignalStep queue handler id s
        (.poll polled.sink.log
          (s.queue.callError.isNone && scan.reaches (Sink.capacityLeft sink)))
        { s with queue := polled.world }
  | environment (s : World) (kqueue after : KernelQueue) (hknotes : kqueue.knotes = s.kqueue.knotes)
      (hactive : kqueue.active.Perm s.kqueue.active)
      (hknote : after.knotes (kqueueKey handler.kq.kq) = s.queue.knotes (kqueueKey handler.kq.kq))
      (hsole : ∀ key knote, after.knotes key = some knote → knote.udata = id.val →
        key = kqueueKey handler.kq.kq) :
      SignalStep queue handler id s .environment { s with kqueue := kqueue, queue := after }

/-- The kqueue has a filter for each signal of the set, and for no other signal, and only these
filters fire. -/
structure WatchesSignals (signals : SignalSet) (kqueue : KernelQueue) : Prop where
  isSome_iff : ∀ rawSignal, (kqueue.knotes (signalKey rawSignal)).isSome = true
    ↔ ∃ signal ∈ signals.toList, rawSignal = signal.intoRaw
  repeated : ∀ rawSignal knote, kqueue.knotes (signalKey rawSignal) = some knote →
    knote.isOneshot = false
  active_nodup : kqueue.active.Nodup
  active : ∀ key ∈ kqueue.active, ∃ signal ∈ signals.toList, key = signalKey signal.intoRaw

/-- The signals whose filters are going to fire. -/
def owed (kqueue : KernelQueue) : Set Signal :=
  {signal | signalKey signal.intoRaw ∈ kqueue.active}

theorem signalKey_intoRaw_injective :
    Function.Injective fun signal : Signal => signalKey signal.intoRaw := by
  intro first second h
  cases first <;> cases second <;> first | rfl | exact absurd h (by decide)

variable {signals : SignalSet} {kqueue : KernelQueue} {handler : Signals}

/-- A filter that is there and is not going to fire yet. -/
def Waits (kqueue : KernelQueue) (rawSignal : Int32) : Prop :=
  (kqueue.knotes (signalKey rawSignal)).isSome = true ∧ signalKey rawSignal ∉ kqueue.active

theorem raise_of_waits {rawSignal : Int32} (h : Waits kqueue rawSignal) :
    kqueue.raise rawSignal
      = { kqueue with active := kqueue.active ++ [signalKey rawSignal] } := by
  have hcond : ((kqueue.knotes (signalKey rawSignal)).isSome
      && !kqueue.active.contains (signalKey rawSignal)) = true := by
    simpa [Waits] using h
  exact if_pos hcond

theorem raise_of_not_waits {rawSignal : Int32} (h : ¬ Waits kqueue rawSignal) :
    kqueue.raise rawSignal = kqueue := by
  have hcond : ¬ ((kqueue.knotes (signalKey rawSignal)).isSome
      && !kqueue.active.contains (signalKey rawSignal)) = true := by
    simpa [Waits] using h
  exact if_neg hcond

theorem WatchesSignals.raise (h : WatchesSignals signals kqueue) (rawSignal : Int32) :
    WatchesSignals signals (kqueue.raise rawSignal) := by
  by_cases hwaits : Waits kqueue rawSignal
  · rw [raise_of_waits hwaits]
    refine ⟨h.isSome_iff, h.repeated, ?_, ?_⟩
    · exact List.nodup_append.mpr ⟨h.active_nodup, List.nodup_singleton _,
        fun key hkey key' hkey' heq => hwaits.2 (List.mem_singleton.mp hkey' ▸ heq ▸ hkey)⟩
    · intro key hkey
      rcases List.mem_append.mp hkey with hkey | hkey
      · exact h.active key hkey
      · obtain ⟨signal, hmem, rfl⟩ := (h.isSome_iff rawSignal).mp hwaits.1
        exact ⟨signal, hmem, List.mem_singleton.mp hkey⟩
  · rw [raise_of_not_waits hwaits]
    exact h

theorem owed_raise (h : WatchesSignals signals kqueue) (id : Id) (rawSignal : Int32) :
    Mailbox.Step (owed kqueue) ((.raise rawSignal : SignalLabel IoError).toMailbox id signals)
      (owed (kqueue.raise rawSignal)) := by
  rcases SignalLabel.toMailbox_raise_cases id signals rawSignal with
    ⟨signal, hmem, rfl, hlabel⟩ | ⟨hnone, hlabel⟩
  · have howed : owed (kqueue.raise signal.intoRaw) = insert signal (owed kqueue) := by
      have hsome := (h.isSome_iff signal.intoRaw).mpr ⟨signal, hmem, rfl⟩
      ext other
      rw [Set.mem_insert_iff, owed, owed, Set.mem_ofPred_eq, Set.mem_ofPred_eq,
        ← signalKey_intoRaw_injective.eq_iff]
      by_cases hactive : signalKey signal.intoRaw ∈ kqueue.active
      · rw [raise_of_not_waits fun hwaits => hwaits.2 hactive]
        exact (or_iff_right_of_imp fun heq => heq ▸ hactive).symm
      · rw [raise_of_waits ⟨hsome, hactive⟩, List.mem_append, List.mem_singleton, or_comm]
    rw [hlabel, howed]
    exact .post _ signal
  · have hsame : kqueue.raise rawSignal = kqueue := by
      refine raise_of_not_waits fun hwaits => ?_
      obtain ⟨signal, hmem, heq⟩ := (h.isSome_iff rawSignal).mp hwaits.1
      exact hnone signal hmem heq
    rw [hlabel, hsame]
    exact .other _

theorem toInt32_identOf (signal : Signal) :
    (identOf signal.intoRaw).toUInt32.toInt32 = signal.intoRaw := by
  cases signal <;> decide

/-- A call of `receive` fails and takes nothing, or finds nothing, or takes the first of the signals
whose filters are going to fire. -/
theorem receive_cases (h : WatchesSignals signals kqueue) (handler : Signals) :
    (∃ err, handler.receive kqueue = (.returned (.error err), kqueue))
      ∨ (kqueue.active = [] ∧ handler.receive kqueue = (.returned (.ok none), kqueue))
      ∨ ∃ signal rest, kqueue.active = signalKey signal.intoRaw :: rest
        ∧ handler.receive kqueue = (.returned (.ok (some signal)), { kqueue with active := rest })
    := by
  rcases Option.eq_none_or_eq_some kqueue.callError with hcall | ⟨errno, hcall⟩
  · have hkevent : kqueue.kevent [] 1
        = (⟨Int32.ofNat (kqueue.deliver 1 kqueue.active).1.length,
          (kqueue.deliver 1 kqueue.active).1, 0⟩, (kqueue.deliver 1 kqueue.active).2) := by
      rw [KernelQueue.kevent, hcall]
      rfl
    rcases hactive : kqueue.active with _ | ⟨key, rest⟩
    · have hdeliver : kqueue.deliver 1 kqueue.active = ([], kqueue) := by
        rw [hactive, KernelQueue.deliver, ← hactive]
      refine Or.inr (Or.inl ⟨rfl, ?_⟩)
      rw [hdeliver] at hkevent
      simp only [Signals.receive, Kernel.kevent, hkevent]
      rfl
    · obtain ⟨signal, hmem, rfl⟩ := h.active key (hactive ▸ List.mem_cons_self)
      obtain ⟨knote, hknote⟩ := Option.isSome_iff_exists.mp
        ((h.isSome_iff signal.intoRaw).mpr ⟨signal, hmem, rfl⟩)
      have hdeliver : kqueue.deliver 1 kqueue.active
          = ([knote.kevent (signalKey signal.intoRaw)],
            { kqueue with active := rest }) := by
        rw [hactive, KernelQueue.deliver]
        simp only [hknote, h.repeated _ _ hknote, KernelQueue.deliver, Bool.false_eq_true, if_false]
      refine Or.inr (Or.inr ⟨signal, rest, rfl, ?_⟩)
      rw [hdeliver] at hkevent
      simp only [Signals.receive, Kernel.kevent, hkevent, Knote.kevent, signalKey, toInt32_identOf,
        Signal.fromRaw_eq_some_iff.mpr rfl]
      rfl
  · have hkevent : kqueue.kevent [] 1 = (⟨-1, [], errno⟩, kqueue) := by
      rw [KernelQueue.kevent, hcall]
    refine Or.inl ⟨⟨errno⟩, ?_⟩
    simp only [Signals.receive, Kernel.kevent, hkevent, if_true]

theorem WatchesSignals.receive (h : WatchesSignals signals kqueue) (handler : Signals) :
    WatchesSignals signals (handler.receive kqueue).2 := by
  rcases receive_cases h handler with ⟨err, hreceive⟩ | ⟨-, hreceive⟩
    | ⟨signal, rest, hactive, hreceive⟩
  · rw [hreceive]
    exact h
  · rw [hreceive]
    exact h
  · rw [hreceive]
    have hnodup := h.active_nodup
    rw [hactive] at hnodup
    refine ⟨h.isSome_iff, h.repeated, hnodup.of_cons, fun key hkey => h.active key ?_⟩
    rw [hactive]
    exact List.mem_cons_of_mem _ hkey

theorem WatchesSignals.environment (h : WatchesSignals signals kqueue) {after : KernelQueue}
    (hknotes : after.knotes = kqueue.knotes) (hactive : after.active.Perm kqueue.active) :
    WatchesSignals signals after where
  isSome_iff := hknotes ▸ h.isSome_iff
  repeated := hknotes ▸ h.repeated
  active_nodup := hactive.nodup_iff.mpr h.active_nodup
  active key hkey := h.active key (hactive.subset hkey)

theorem readable_iff (h : WatchesSignals signals kqueue) :
    kqueue.readable = true ↔ (owed kqueue).Nonempty := by
  rw [KernelQueue.readable, Bool.not_eq_true', List.isEmpty_eq_false_iff_exists_mem]
  constructor
  · rintro ⟨key, hkey⟩
    obtain ⟨signal, -, rfl⟩ := h.active key hkey
    exact ⟨signal, hkey⟩
  · rintro ⟨signal, hmem⟩
    exact ⟨_, hmem⟩

theorem owed_received (h : WatchesSignals signals kqueue) (handler : Signals) (id : Id) :
    (.received (handler.receive kqueue).1 : SignalLabel IoError).Proper id
      ∧ Mailbox.Step (owed kqueue)
        ((.received (handler.receive kqueue).1 : SignalLabel IoError).toMailbox id signals)
        (owed (handler.receive kqueue).2) := by
  rcases receive_cases h handler with ⟨err, hreceive⟩ | ⟨hactive, hreceive⟩
    | ⟨signal, rest, hactive, hreceive⟩
  · rw [hreceive]
    exact ⟨nofun, .other _⟩
  · have hempty : owed kqueue = ∅ := by
      rw [Set.eq_empty_iff_forall_notMem]
      intro signal hmem
      rw [owed, Set.mem_ofPred_eq, hactive] at hmem
      cases hmem
    rw [hreceive, hempty]
    exact ⟨nofun, .nothing⟩
  · have hnodup := h.active_nodup
    rw [hactive] at hnodup
    have hrest : owed { kqueue with active := rest } = owed kqueue \ {signal} := by
      ext other
      rw [owed, owed, Set.mem_sdiff, Set.mem_singleton_iff, Set.mem_ofPred_eq, Set.mem_ofPred_eq,
        hactive, List.mem_cons, signalKey_intoRaw_injective.eq_iff]
      constructor
      · intro hmem
        refine ⟨Or.inr hmem, ?_⟩
        rintro rfl
        exact (List.nodup_cons.mp hnodup).1 hmem
      · rintro ⟨heq | hmem, hne⟩
        · exact absurd heq hne
        · exact hmem
    have hmem : signal ∈ owed kqueue := by
      rw [owed, Set.mem_ofPred_eq, hactive]
      exact List.mem_cons_self
    rw [hreceive, hrest]
    exact ⟨nofun, .take _ signal hmem⟩

/-- How the kqueue of a handler is registered with the queue. -/
def handlerKnote (id : Id) : Knote := knoteOf ⟨id, Interests.readable, RegisterOption.level⟩

/-- What is kept of a handler: its signals are blocked and are the ones that it watches, and its
kqueue has the one filter that is registered under its id. -/
structure World.Good (handler : Signals) (id : Id) (signals : SignalSet) (s : World) : Prop where
  guards : s.signals.Guards signals
  watches : WatchesSignals signals s.kqueue
  sole : s.queue.Sole (kqueueKey handler.kq.kq) (handlerKnote id)

section Step

variable {queue : OsQueue Selector} {id : Id}

/-- The registration is level-triggered, so an edge does not matter. -/
theorem World.Good.triggers_eq {s : World} (h : s.Good handler id signals) (edge : Bool) :
    s.triggers handler.kq.kq edge = s.kqueue.readable := by
  have hlevel : containsFlag (handlerKnote id).flags evClear = false :=
    (by decide : containsFlag (optToFlags RegisterOption.level ||| evAdd) evClear = false)
  rw [World.triggers, h.sole.entry]
  simp [hlevel]

theorem keventToEvent_handlerKnote (id : Id) (kq : RawFd) :
    keventToEvent ((handlerKnote id).kevent (kqueueKey kq)) = SignalLabel.event id := by
  have herror : containsFlag (optToFlags RegisterOption.level ||| evAdd) evError = false := by
    decide
  have heof : containsFlag (optToFlags RegisterOption.level ||| evAdd) evEof = false := by decide
  simp only [Knote.kevent, kqueueKey, handlerKnote, knoteOf, keventToEvent, herror, heof,
    Bool.false_eq_true, if_false]
  rfl

theorem World.Good.poll {s : World} (h : s.Good handler id signals) {ES : Type} [Sink ES]
    (sink : ES) (timeout : Option Duration) (scan : Scan Key)
    (hothers : ∀ key ∈ scan.ahead ++ scan.behind, key ≠ kqueueKey handler.kq.kq) :
    let polled : Polled (OsQueue Selector) (Tap ES) IoError KernelQueue :=
      queue.blockingPoll ⟨sink, []⟩ timeout (s.scanned handler.kq.kq scan)
    Delivered (Event.isOf id) (SignalLabel.event id) s.kqueue.readable
        (s.queue.callError.isNone && scan.reaches (Sink.capacityLeft sink)) polled.sink.log
      ∧ polled.world.Sole (kqueueKey handler.kq.kq) (handlerKnote id) := by
  have honeshot : (handlerKnote id).isOneshot = false :=
    (by decide : containsFlag (optToFlags RegisterOption.level ||| evAdd) evOneshot = false)
  have hready : (s.scanned handler.kq.kq scan).active
      = scan.ready (kqueueKey handler.kq.kq) s.kqueue.readable := by
    rw [← h.triggers_eq scan.edge]
    rfl
  have hsole : (s.scanned handler.kq.kq scan).Sole (kqueueKey handler.kq.kq) (handlerKnote id) :=
    ⟨h.sole.entry, h.sole.sole⟩
  have hselect := delivered_select hsole honeshot hready hothers queue.selector sink timeout
  rw [keventToEvent_handlerKnote] at hselect
  exact hselect

theorem SignalStep.simulates {s t : World} {label : SignalLabel IoError}
    (h : s.Good handler id signals) (step : SignalStep queue handler id s label t) :
    t.Good handler id signals ∧ label.Proper id
      ∧ Mailbox.Step (owed s.kqueue) (label.toMailbox id signals) (owed t.kqueue) := by
  cases step with
  | raise rawSignal =>
      exact ⟨⟨h.guards.raise rawSignal, h.watches.raise rawSignal, h.sole⟩, trivial,
        owed_raise h.watches id rawSignal⟩
  | received =>
      exact ⟨⟨h.guards, h.watches.receive handler, h.sole⟩, owed_received h.watches handler id⟩
  | poll sink timeout scan hothers polled hpolled =>
      subst hpolled
      obtain ⟨hdelivered, hsole⟩ := h.poll sink timeout scan hothers
      exact ⟨⟨h.guards, h.watches, hsole⟩, hdelivered.once,
        SignalLabel.step_poll hdelivered (readable_iff h.watches)⟩
  | environment kqueue after hknotes hactive hknote hsole =>
      have howed : owed kqueue = owed s.kqueue := Set.ext fun signal => hactive.mem_iff
      refine ⟨⟨h.guards, h.watches.environment hknotes hactive, hknote.trans h.sole.entry, hsole⟩,
        trivial, ?_⟩
      rw [howed]
      exact .other _

end Step

/-! ## A handler that has been made -/

def signalChange (id : Id) (signal : Signal) : Kevent :=
  newKevent (identOf signal.intoRaw) .signal (evReceipt ||| evAdd) id

theorem isChange_signalChange (id : Id) (signal : Signal) : (signalChange id signal).IsChange where
  receipt := (by decide : containsFlag (evReceipt ||| evAdd) evReceipt = true)
  kind := Or.inl (by decide : containsFlag (evReceipt ||| evAdd) evAdd = true)

theorem key_signalChange (id : Id) (signal : Signal) :
    (signalChange id signal).key = signalKey signal.intoRaw := rfl

theorem pairwise_signalChanges (id : Id) (signals : SignalSet) :
    (signals.toList.map (signalChange id)).Pairwise fun first second => first.key ≠ second.key := by
  rw [List.pairwise_map]
  exact signals.nodup_toList.imp fun hne heq => hne (signalKey_intoRaw_injective heq)

/-- Registering the signals of a set in an empty kqueue makes it watch them. -/
theorem watches_makeChanges (id : Id) (signals : SignalSet) :
    WatchesSignals signals
      (KernelQueue.empty.makeChanges (signals.toList.map (signalChange id))).2 := by
  have hmade : KernelQueue.Made KernelQueue.empty (signals.toList.map (signalChange id)) _ :=
    KernelQueue.made_makeChanges
      (List.forall_mem_map.mpr fun signal _ => isChange_signalChange id signal)
      (pairwise_signalChanges id signals)
  generalize KernelQueue.empty.makeChanges (signals.toList.map (signalChange id)) = made at hmade
  have hactive : made.2.active = [] := congrArg KernelQueue.active hmade.rest
  have hknote (signal : Signal) (hmem : signal ∈ signals.toList) :
      made.2.knotes (signalKey signal.intoRaw) = some ⟨evReceipt ||| evAdd, id.val⟩ := by
    rw [← key_signalChange id, hmade.changed _ (List.mem_map_of_mem hmem)]
    exact if_pos (by decide : containsFlag (evReceipt ||| evAdd) evAdd = true)
  have hnone (rawSignal : Int32) (h : ∀ signal ∈ signals.toList, rawSignal ≠ signal.intoRaw) :
      made.2.knotes (signalKey rawSignal) = none := by
    refine hmade.unchanged _ (List.forall_mem_map.mpr fun signal hmem heq => h signal hmem ?_)
    exact identOf_injective (congrArg Prod.fst heq).symm
  constructor
  · intro rawSignal
    by_cases hraw : ∃ signal ∈ signals.toList, rawSignal = signal.intoRaw
    · obtain ⟨signal, hmem, rfl⟩ := hraw
      rw [hknote signal hmem]
      exact iff_of_true rfl ⟨signal, hmem, rfl⟩
    · rw [hnone rawSignal fun signal hmem heq => hraw ⟨signal, hmem, heq⟩]
      exact iff_of_false Bool.false_ne_true hraw
  · intro rawSignal knote hsome
    by_cases hraw : ∃ signal ∈ signals.toList, rawSignal = signal.intoRaw
    · obtain ⟨signal, hmem, rfl⟩ := hraw
      rw [hknote signal hmem] at hsome
      rw [← Option.some.inj hsome]
      exact (by decide : containsFlag (evReceipt ||| evAdd) evOneshot = false)
    · rw [hnone rawSignal fun signal hmem heq => hraw ⟨signal, hmem, heq⟩] at hsome
      cases hsome
  · rw [hactive]
    exact List.nodup_nil
  · rw [hactive]
    exact nofun

/-- A kqueue that watches the signals of a set, and in which nothing has happened. -/
def Fresh (signals : SignalSet) (kqueue : KernelQueue) : Prop :=
  WatchesSignals signals kqueue ∧ kqueue.active = []

theorem fresh_registerSignals (kq : RawFd) (id : Id) (signals : SignalSet) :
    Fresh signals (keventRegister kq (signals.toList.map (signalChange id)) []
      KernelQueue.empty).2 := by
  have hmade := watches_makeChanges id signals
  have hactive : (KernelQueue.empty.makeChanges (signals.toList.map (signalChange id))).2.active
      = [] := by
    have hmade : KernelQueue.empty.Made _ _ := KernelQueue.made_makeChanges
      (List.forall_mem_map.mpr fun signal _ => isChange_signalChange id signal)
      (pairwise_signalChanges id signals)
    exact congrArg KernelQueue.active hmade.rest
  have hlen : (signals.toList.map (signalChange id)).length < 2 ^ 31 := by
    have hle : signals.toList.length ≤ 3 := List.length_filter_le _ _
    rw [List.length_map]
    omega
  by_cases hne : signals.toList.map (signalChange id) = []
  · rw [hne] at hmade ⊢
    exact ⟨hmade, rfl⟩
  · rw [keventRegister_eq rfl
      (List.forall_mem_map.mpr fun signal _ => isChange_signalChange id signal)
      (pairwise_signalChanges id signals) hne hlen]
    exact ⟨hmade, hactive⟩

theorem Fresh.setKnote {signals : SignalSet} {kqueue : KernelQueue} (h : Fresh signals kqueue)
    {key : Key} (hkey : key.2 ≠ .signal) (knote : Option Knote) :
    Fresh signals (kqueue.setKnote key knote) := by
  have hsame (rawSignal : Int32) :
      (kqueue.setKnote key knote).knotes (signalKey rawSignal)
        = kqueue.knotes (signalKey rawSignal) :=
    KernelQueue.knotes_setKnote_of_ne (fun heq => hkey (congrArg Prod.snd heq).symm) knote
  refine ⟨⟨fun rawSignal => ?_, fun rawSignal knote' hsome => ?_, h.1.active_nodup, h.1.active⟩,
    h.2⟩
  · rw [hsame]
    exact h.1.isSome_iff rawSignal
  · rw [hsame] at hsome
    exact h.1.repeated rawSignal knote' hsome

/-- The kqueue of a descriptor watches the signals of a set. -/
def Holds (fd : RawFd) (signals : SignalSet) (process : Process KernelQueue) : Prop :=
  ∃ kqueue, process.queue fd = some kqueue ∧ Fresh signals kqueue

theorem ensures_registerSignals {process : Process KernelQueue} {fd : RawFd}
    (hqueue : process.queue fd = some KernelQueue.empty) (id : Id) (signals : SignalSet) :
    Ensures (fun _ after => Holds fd signals after)
      (of (Selector.registerSignals ⟨fd⟩ id signals)) process := by
  intro _ after hrun
  change keventRegister fd (signals.toList.map (signalChange id)) [] process = _ at hrun
  have hset : Holds fd signals (process.setQueue fd
      (keventRegister fd (signals.toList.map (signalChange id)) [] KernelQueue.empty).2) :=
    ⟨_, queue_setQueue hqueue _, fresh_registerSignals fd id signals⟩
  cases herrno : process.answers.errno (.kevent fd) with
  | none =>
      rw [keventRegister_of_none hqueue herrno] at hrun
      exact (Prod.mk.inj hrun).2 ▸ hset
  | some errno =>
      rw [keventRegister_of_some hqueue herrno] at hrun
      split at hrun
      · exact (Prod.mk.inj hrun).2 ▸ hset
      · cases hrun

/-- Registering a descriptor with a kqueue does not touch the filters of signals. -/
theorem maintains_holds (selector : Selector) (fd : RawFd) (id : Id) (signals : SignalSet) :
    Maintains (Holds fd signals)
      (of (selector.register fd id Interests.readable RegisterOption.level)) := by
  rintro process ⟨kqueue, hqueue, hfresh⟩
  change Holds fd signals
    (selector.register fd id Interests.readable RegisterOption.level process).2
  rw [register_readable_eq]
  rcases keventRegister_snd selector.kq [readableChange fd id RegisterOption.level] [] process
    with hsame | ⟨other, hother, hset⟩
  · rw [hsame]
    exact ⟨kqueue, hqueue, hfresh⟩
  · obtain ⟨knote, hknote⟩ :=
      setKnote_of_keventRegister other (isChange_changeOf _ _) selector.kq []
    obtain ⟨file, hfile, hkqueue⟩ := Option.bind_eq_some_iff.mp hqueue
    obtain ⟨file', hfile', hkqueue'⟩ := Option.bind_eq_some_iff.mp hother
    rw [hset, readableChange, hknote, Process.setQueue_of_some hfile']
    by_cases heq : file = file'
    · subst heq
      obtain rfl := Option.some.inj (hkqueue.symm.trans hkqueue')
      have hkey : (changeOf (.register fd ⟨id, Interests.readable, RegisterOption.level⟩)
          .read).key.2 ≠ .signal := nofun
      refine ⟨_, ?_, hfresh.setKnote hkey knote⟩
      rw [Process.queue, hfile]
      exact Function.update_self _ _ _
    · refine ⟨kqueue, ?_, hfresh⟩
      rw [Process.queue, hfile]
      exact (Function.update_of_ne heq _ _).trans hkqueue

/-- The kqueue of the queue, next to that of a handler that is being made. -/
structure Beside (selector : Selector) (fd : RawFd) (queue : KernelQueue)
    (process : Process KernelQueue) : Prop where
  queue_eq : process.queue selector.kq = some queue
  files_ne : process.files fd ≠ process.files selector.kq
  errno_ne : process.answers.errno (.kevent selector.kq) ≠ some eintr

theorem ensures_selectorNew {selector : Selector} {queue : KernelQueue}
    {process : Process KernelQueue} (hempty : process.answers.newQueue = .empty)
    (hqueue : process.queue selector.kq = some queue)
    (herrno : process.answers.errno (.kevent selector.kq) ≠ some eintr) :
    Ensures (fun kq after => after.queue kq.kq = some KernelQueue.empty
        ∧ Beside selector kq.kq queue after)
      (Selector.new : SysM KernelQueue Selector) process := by
  intro kq after hrun
  cases halloc : process.answers.alloc process.files with
  | error err =>
      have hnew : Selector.new process = (.error err, process) :=
        bind_of_error (openFile_of_error halloc _)
      cases hrun.symm.trans hnew
  | ok fresh =>
      have hnew : Selector.new process = (.ok ⟨fresh⟩, _) := bind_of_ok (openFile_of_ok halloc _)
      cases hrun.symm.trans hnew
      obtain ⟨file, hfile, hqueue⟩ := Option.bind_eq_some_iff.mp hqueue
      have hopened : (process.openFile fresh (some process.answers.newQueue)).files fresh
          = some process.nextFile := Function.update_self _ _ _
      have hne : selector.kq ≠ fresh := by
        intro heq
        cases hfile.symm.trans (heq ▸ fresh.property)
      have hkept : (process.openFile fresh (some process.answers.newQueue)).files selector.kq
          = some file := (Function.update_of_ne hne _ _).trans hfile
      have hfile_ne := (process.files_lt selector.kq file hfile).ne
      refine ⟨?_, ?_, ?_, herrno⟩
      · rw [Process.queue, hopened, ← hempty]
        exact Function.update_self _ _ _
      · rw [Process.queue, hkept]
        exact (Function.update_of_ne hfile_ne _ _).trans hqueue
      · rw [hopened, hkept]
        exact fun heq => hfile_ne (Option.some.inj heq).symm

theorem maintains_beside (selector : Selector) (fd : RawFd) (queue : KernelQueue)
    (changes : List Kevent) :
    Maintains (Beside selector fd queue)
      (of (keventRegister fd changes []) : SysM KernelQueue Unit) := by
  intro process h
  change Beside selector fd queue (keventRegister fd changes [] process).2
  rcases keventRegister_snd fd changes [] process with hsame | ⟨kqueue, hkqueue, hset⟩
  · rw [hsame]
    exact h
  · obtain ⟨file, hfile, -⟩ := Option.bind_eq_some_iff.mp hkqueue
    obtain ⟨file', hfile', hqueue⟩ := Option.bind_eq_some_iff.mp h.queue_eq
    have hne : file' ≠ file := by
      rintro rfl
      exact h.files_ne (hfile.trans hfile'.symm)
    rw [hset, Process.setQueue_of_some hfile]
    refine ⟨?_, h.files_ne, h.errno_ne⟩
    rw [Process.queue, hfile']
    exact (Function.update_of_ne hne _ _).trans hqueue

/-- The kqueue of the handler is registered under an id that no other filter has. -/
theorem sole_register {selector : Selector} {queue : KernelQueue} {fd : RawFd} {id : Id}
    (hid : ∀ key knote, queue.knotes key = some knote → knote.udata ≠ id.val)
    (hok : (selector.register fd id Interests.readable RegisterOption.level queue).1 = .ok ()) :
    (selector.register fd id Interests.readable RegisterOption.level queue).2.Sole (kqueueKey fd)
      (handlerKnote id) := by
  obtain ⟨knote, hknote⟩ :=
    setKnote_of_keventRegister queue (isChange_changeOf _ _) selector.kq []
  have hset : (selector.register fd id Interests.readable RegisterOption.level queue).2
      = queue.setKnote (kqueueKey fd) knote := by
    rw [register_readable_eq]
    exact hknote
  constructor
  · let request : Request := .register fd ⟨id, Interests.readable, RegisterOption.level⟩
    have hmem : Filter.read ∈ filtersOf request := by
      rw [filtersOf_readable]
      exact List.mem_singleton_self _
    have hok : (selector.request request queue).1 = .ok () := hok
    have hwanted : wanted Interests.readable .read = true := by decide
    exact (knotes_request_of_ok hok hmem).trans (if_pos hwanted)
  · intro key knote' hmem hudata
    by_contra hne
    rw [hset, KernelQueue.knotes_setKnote_of_ne hne] at hmem
    exact hid key knote' hmem hudata

/-- A registration that succeeds, and has not been interrupted, has reached the kqueue of the
queue. -/
theorem ensures_register {selector : Selector} {fd : RawFd} {queue : KernelQueue} {id : Id}
    {process : Process KernelQueue} (h : Beside selector fd queue process)
    (hid : ∀ key knote, queue.knotes key = some knote → knote.udata ≠ id.val) :
    Ensures (fun _ after => ∃ queue, after.queue selector.kq = some queue
        ∧ queue.Sole (kqueueKey fd) (handlerKnote id))
      (of (selector.register fd id Interests.readable RegisterOption.level)) process := by
  intro _ after hrun
  have hregister : selector.register fd id Interests.readable RegisterOption.level process
      = (.ok (), after) := hrun
  rw [register_readable_eq] at hregister
  cases herrno : process.answers.errno (.kevent selector.kq) with
  | some errno =>
      have hne : errno ≠ eintr := fun heq => h.errno_ne (herrno.trans (congrArg some heq))
      rw [keventRegister_of_some h.queue_eq herrno, if_neg hne] at hregister
      cases hregister
  | none =>
      rw [keventRegister_of_none h.queue_eq herrno, ← register_readable_eq] at hregister
      obtain ⟨hok, rfl⟩ := Prod.mk.inj hregister
      exact ⟨_, queue_setQueue h.queue_eq _, sole_register hid hok⟩

/-- The handler has a kqueue of its own that watches its signals, these are blocked, and the kqueue
is registered with that of the queue. -/
structure Installed (selector : Selector) (id : Id) (signals : SignalSet) (handler : Signals)
    (process : Process KernelQueue) : Prop where
  holds : Holds handler.kq.kq signals process
  mask : ∀ signal ∈ signals.toList, process.mask signal.intoRaw = true
  registered : ∃ queue, process.queue selector.kq = some queue
    ∧ queue.Sole (kqueueKey handler.kq.kq) (handlerKnote id)

theorem ensures_new {process : Process KernelQueue} (hempty : process.answers.newQueue = .empty)
    {selector : Selector} {queue : KernelQueue} {id : Id}
    (hqueue : process.queue selector.kq = some queue)
    (hid : ∀ key knote, queue.knotes key = some knote → knote.udata ≠ id.val)
    (herrno : process.answers.errno (.kevent selector.kq) ≠ some eintr) (signals : SignalSet) :
    Ensures (Installed selector id signals) (Signals.new selector signals id) process := by
  unfold Signals.new
  rcases createSigset_cases signals process with ⟨-, hset⟩ | ⟨-, err, hset⟩
  · intro handler after hrun
    rw [bind_of_ok hset] at hrun
    refine Ensures.bind (R := Installed selector id signals)
      (ensures_selectorNew hempty hqueue herrno) (fun kq between hnew => ?_) handler after hrun
    obtain ⟨hown, hbeside⟩ := hnew
    refine Ensures.bind (P := fun _ later => Installed selector id signals ⟨kq⟩ later)
      (Ensures.cleaningUp ?_ _) fun _ later hlater => ensures_pure hlater
    have hsignals := (ensures_registerSignals hown id signals).and
      ((maintains_beside selector kq.kq queue _).ensures hbeside)
    refine hsignals.bind fun _ between hbetween => ?_
    have hregister := ((maintains_holds selector kq.kq id signals).ensures hbetween.1).and
      (ensures_register hbetween.2 hid)
    refine hregister.bind fun _ between hbetween => ?_
    intro _ later hlater
    obtain ⟨hmask, mask, rfl⟩ := ensures_blockSignals _ between _ later hlater
    exact ⟨hbetween.1, fun signal hmem => hmask _ (List.mem_map_of_mem hmem), hbetween.2⟩
  · intro handler after hrun
    rw [bind_of_error hset] at hrun
    cases hrun

/-- **Signals on kqueue are neither lost nor invented.** A handler has been made for a queue in which
no handle has its id, and the call that registers its kqueue with the one of the queue was not
interrupted. Every run that starts when none of its signals is pending, of raised signals, calls of
`receive` that may fail, and polls of the queue is faithful, and no signal of the set acts on the
process. -/
theorem kqueue_faithful {selector : Selector} {signals : SignalSet} {id : Id}
    {process after : Process KernelQueue} {handler : Signals} {before : KernelQueue}
    (hempty : process.answers.newQueue = .empty) (hqueue : process.queue selector.kq = some before)
    (hid : ∀ key knote, before.knotes key = some knote → knote.udata ≠ id.val)
    (herrno : process.answers.errno (.kevent selector.kq) ≠ some eintr)
    (hnew : Signals.new selector signals id process = (.ok handler, after)) :
    ∃ kqueue queue, after.queue handler.kq.kq = some kqueue ∧ after.queue selector.kq = some queue
      ∧ ∀ labels s, Run (SignalStep ⟨selector⟩ handler id)
          ⟨SignalState.new after.mask, kqueue, queue⟩ labels s →
        SignalLabel.Faithful id signals labels
          ∧ ∀ signal ∈ signals.toList, signal.intoRaw ∉ s.signals.acted := by
  obtain ⟨⟨kqueue, hkqueue, hwatches, hactive⟩, hmask, queue, hqueue', hsole⟩ :=
    ensures_new hempty hqueue hid herrno signals handler after hnew
  refine ⟨kqueue, queue, hkqueue, hqueue', fun labels s run => ?_⟩
  have hgood : World.Good handler id signals ⟨SignalState.new after.mask, kqueue, queue⟩ :=
    ⟨SignalState.guards_new hmask, hwatches, hsole⟩
  have hnothing : owed kqueue = ∅ := by
    rw [Set.eq_empty_iff_forall_notMem]
    intro signal hmem
    rw [owed, Set.mem_ofPred_eq, hactive] at hmem
    cases hmem
  obtain ⟨hfaithful, hs⟩ := SignalLabel.faithful_of_run (fun s : World => owed s.kqueue)
    (fun s label t h step => SignalStep.simulates h step) hgood hnothing run
  exact ⟨hfaithful, hs.guards.acted⟩

/-- Two signals are raised, the first to be received is the one that the kernel puts first, and the
poll that follows finds the other one. -/
theorem kqueue_faithful_two_signals :
    let empty := KernelQueue.empty
    let process := (Process.new ⟨firstClosed [3, 4], fun _ => none, 36, empty⟩).openFile 3
      (some empty)
    let after := (Signals.new ⟨3⟩ SignalSet.all ⟨1⟩ process).2
    let labels : List (SignalLabel IoError) :=
      [.raise 2, .raise 15, .environment, .received (.returned (.ok (some .terminate))),
        .poll [⟨⟨1⟩, Ready.readable⟩] true]
    ∃ kqueue queue s, after.queue 4 = some kqueue ∧ after.queue 3 = some queue
      ∧ Run (SignalStep ⟨⟨3⟩⟩ ⟨⟨4⟩⟩ ⟨1⟩) ⟨SignalState.new after.mask, kqueue, queue⟩ labels s
      ∧ SignalLabel.Faithful ⟨1⟩ SignalSet.all labels := by
  intro empty process after labels
  have hnew : Signals.new ⟨3⟩ SignalSet.all ⟨1⟩ process = (.ok ⟨⟨4⟩⟩, after) :=
    Prod.ext (by decide +kernel) rfl
  have hnone (key : Key) (knote : Knote) : empty.knotes key ≠ some knote :=
    (Option.some_ne_none knote).symm
  obtain ⟨kqueue', queue', hkqueue', hqueue', hfaithful⟩ := kqueue_faithful rfl
    (rfl : process.queue 3 = some empty) (fun key knote h => absurd h (hnone key knote)) nofun hnew
  let kqueue := (after.queue 4).getD empty
  let queue := (after.queue 3).getD empty
  have hkqueue : after.queue 4 = some kqueue := by
    rw [← Option.some_get (by decide +kernel : (after.queue 4).isSome = true), Option.get_eq_getD]
  have hqueue : after.queue 3 = some queue := by
    rw [← Option.some_get (by decide +kernel : (after.queue 3).isSome = true), Option.get_eq_getD]
  obtain rfl : kqueue = kqueue' := Option.some.inj (hkqueue.symm.trans hkqueue')
  obtain rfl : queue = queue' := Option.some.inj (hqueue.symm.trans hqueue')
  let start : World := ⟨SignalState.new after.mask, kqueue, queue⟩
  let once : World := ⟨start.signals.raise 2, start.kqueue.raise 2, queue⟩
  let twice : World := ⟨once.signals.raise 15, once.kqueue.raise 15, queue⟩
  let reordered : KernelQueue := { twice.kqueue with active := [signalKey 15, signalKey 2] }
  -- a queue in which the handler has the one filter
  let sole := empty.setKnote (kqueueKey 4) (some (handlerKnote ⟨1⟩))
  let received : World := ⟨twice.signals, (Signals.receive ⟨⟨4⟩⟩ reordered).2, sole⟩
  let scan : Scan Key := ⟨[], [], false⟩
  obtain ⟨polled, hpolled⟩ : ∃ polled : Polled (OsQueue Selector) (Tap (List Event)) IoError
      KernelQueue, polled = OsQueue.blockingPoll ⟨⟨3⟩⟩ ⟨[], []⟩ none (received.scanned 4 scan) :=
    ⟨_, rfl⟩
  have hperm : reordered.active.Perm twice.kqueue.active := by decide +kernel
  have hreceive : (Signals.receive ⟨⟨4⟩⟩ reordered).1 = .returned (.ok (some .terminate)) := by
    decide +kernel
  have hlog : polled.sink.log = [⟨⟨1⟩, Ready.readable⟩] := by
    rw [hpolled]
    decide +kernel
  have hreached : (received.queue.callError.isNone
      && scan.reaches (Sink.capacityLeft ([] : List Event))) = true := by decide +kernel
  have hknote : sole.knotes (kqueueKey 4) = queue.knotes (kqueueKey 4) := by decide +kernel
  have hsole (key : Key) (knote : Knote) (h : sole.knotes key = some knote) (_ : knote.udata = 1) :
      key = kqueueKey 4 := by
    by_contra hne
    exact hnone key knote ((KernelQueue.knotes_setKnote_of_ne hne _).symm.trans h)
  have hraise := (Run.nil.snoc (@SignalStep.raise ⟨⟨3⟩⟩ ⟨⟨4⟩⟩ ⟨1⟩ start 2)).snoc (.raise once 15)
  have hreceived := (hraise.snoc (.environment twice reordered sole rfl hperm hknote hsole)).snoc
    (.received ⟨twice.signals, reordered, sole⟩)
  have hpoll := hreceived.snoc (.poll received ([] : List Event) none scan nofun polled hpolled)
  dsimp only at hpoll
  rw [hreceive, hlog, hreached] at hpoll
  exact ⟨kqueue, queue, _, hkqueue, hqueue, hpoll, (hfaithful labels _ hpoll).1⟩

end Gaea.Sys.Kqueue
