import Gaea.Poll
import Gaea.UserSpace
import Gaea.Proof.TimersSpec

/-!
# The exact result of one poll

When every source is a `Queue` or a `Timers` and the clock stands still during the call, the result
of a poll can be said in one line: the ready events of the sources, in the order of the list, cut at
the capacity of the sink. The sources draw on that capacity from first to last, so that a source
finds the room that the events of the sources before it have left.
-/

namespace Gaea.PollExact

variable {ES E : Type} [Sink ES]

/-- The events a source has ready at `now`, in the order it hands them over. -/
def ready (now : Instant) : Queue ⊕ Timers → List Event
  | .inl queue => queue.events
  | .inr timers => (timers.ready now).map Deadline.toEvent

def contents : Queue ⊕ Timers → List Event ⊕ Multiset Deadline
  | .inl queue => .inl queue.events
  | .inr timers => .inr timers.pending

def undelivered (now : Instant) (capacity : Capacity) :
    Queue ⊕ Timers → List Event ⊕ Multiset Deadline
  | .inl queue => .inl (capacity.drop queue.events)
  | .inr timers => .inr (timers.pending - (capacity.take (timers.ready now) : List Deadline))

def undeliveredAll (now : Instant) : Capacity → List (Queue ⊕ Timers) →
    List (List Event ⊕ Multiset Deadline)
  | _, [] => []
  | capacity, source :: sources =>
      undelivered now capacity source
        :: undeliveredAll now (capacity.sub (ready now source).length) sources

/-! ## One source -/

section Source

variable (source : Queue ⊕ Timers) (sink : ES) (now : Instant)

theorem blockingPoll_eq_poll (timeout : Option Duration) :
    (Source.blockingPoll source sink timeout (⟨now⟩ : FixedClock) : Polled _ ES E FixedClock)
      = Source.poll source sink ⟨now⟩ := by
  cases source <;> rfl

theorem poll_source_result :
    (Source.poll source sink (⟨now⟩ : FixedClock) : Polled _ ES E FixedClock).result = .ok () := by
  cases source <;> rfl

theorem poll_source_world :
    (Source.poll source sink (⟨now⟩ : FixedClock) : Polled _ ES E FixedClock).world = ⟨now⟩ := by
  cases source <;> rfl

theorem poll_source_sink [LawfulSink ES] :
    (Source.poll source sink (⟨now⟩ : FixedClock) : Polled _ ES E FixedClock).sink
      = Sink.extend sink ((Sink.capacityLeft sink).take (ready now source)) := by
  cases source with
  | inl queue =>
      rw [ready, ← Capacity.take_min _ le_rfl]
      rfl
  | inr timers =>
      rw [ready, ← Capacity.map_take, LawfulSink.extend_eq_foldl]
      exact timers.poll_sink now sink

theorem poll_source_contents :
    contents (Source.poll source sink (⟨now⟩ : FixedClock) : Polled _ ES E FixedClock).source
      = undelivered now (Sink.capacityLeft sink) source := by
  cases source with
  | inl queue =>
      rw [undelivered, ← Capacity.drop_min _ le_rfl]
      rfl
  | inr timers =>
      rw [undelivered, timers.pending_poll now sink]
      rw [Multiset.add_comm, ← Timers.delivered, Multiset.add_sub_cancel_right]
      rfl

theorem poll_source_ready :
    ready now (Source.poll source sink (⟨now⟩ : FixedClock) : Polled _ ES E FixedClock).source
      = (Sink.capacityLeft sink).drop (ready now source) := by
  cases source with
  | inl queue =>
      rw [ready, ← Capacity.drop_min _ le_rfl]
      rfl
  | inr timers =>
      rw [ready, ← Capacity.map_drop, ← timers.ready_poll now sink]
      rfl

end Source

/-! ## A list of sources -/

/-- The result of polling `sources`, all of them reading the same time. -/
structure Exact (now : Instant) (sources : List (Queue ⊕ Timers)) (sink : ES)
    (polled : Polled (List (Queue ⊕ Timers)) ES E FixedClock) : Prop where
  result_eq : polled.result = .ok ()
  sink_eq : polled.sink
    = Sink.extend sink ((Sink.capacityLeft sink).take (sources.flatMap (ready now)))
  contents_eq : polled.source.map contents
    = undeliveredAll now (Sink.capacityLeft sink) sources
  ready_eq : polled.source.flatMap (ready now)
    = (Sink.capacityLeft sink).drop (sources.flatMap (ready now))

variable (now : Instant)

theorem computeTimeout_world (sources : List (Queue ⊕ Timers)) (timeout : Option Duration) :
    (computeTimeout ES E timeout sources (⟨now⟩ : FixedClock)).2 = ⟨now⟩ := by
  induction sources generalizing timeout with
  | nil => rfl
  | cons source sources ih =>
      have hworld : (Source.maxTimeout ES E source (⟨now⟩ : FixedClock)).2 = ⟨now⟩ := by
        cases source with
        | inl queue => rfl
        | inr timers =>
            change (timers.maxTimeout (⟨now⟩ : FixedClock)).2 = ⟨now⟩
            unfold Timers.maxTimeout
            split <;> rfl
      rw [computeTimeout, hworld, ih]

variable [LawfulSink ES]

theorem exact_nil (sink : ES) :
    Exact now [] sink (⟨[], sink, ⟨now⟩, .ok ()⟩ : Polled _ ES E FixedClock) where
  result_eq := rfl
  sink_eq := by simp [extend_nil]
  contents_eq := rfl
  ready_eq := by simp

/-- A poll of the first source, followed by a poll of the others with the room it has left. -/
theorem exact_cons (source : Queue ⊕ Timers) (sources : List (Queue ⊕ Timers)) (sink : ES)
    {rest : Polled (List (Queue ⊕ Timers)) ES E FixedClock}
    (hrest : Exact now sources
      (Source.poll source sink (⟨now⟩ : FixedClock) : Polled _ ES E FixedClock).sink rest) :
    Exact now (source :: sources) sink
      ⟨(Source.poll source sink (⟨now⟩ : FixedClock) : Polled _ ES E FixedClock).source
        :: rest.source, rest.sink, rest.world, rest.result⟩ := by
  have hsink := @poll_source_sink ES E _ source sink now _
  have hleft := capacityLeft_extend_take sink (ready now source)
  rw [hsink] at hrest
  constructor
  · exact hrest.result_eq
  · rw [hrest.sink_eq, hleft, ← extend_append, List.flatMap_cons, Capacity.take_append]
  · rw [List.map_cons, poll_source_contents, hrest.contents_eq, hleft, undeliveredAll]
  · rw [List.flatMap_cons, poll_source_ready, hrest.ready_eq, hleft, List.flatMap_cons,
      Capacity.drop_append]

theorem exact_pollAll (sources : List (Queue ⊕ Timers)) (sink : ES) :
    Exact now sources sink (pollAll sources sink ⟨now⟩ : Polled _ ES E FixedClock) := by
  induction sources generalizing sink with
  | nil => exact exact_nil now sink
  | cons source sources ih =>
      rw [pollAll, poll_source_result, poll_source_world]
      exact exact_cons now source sources sink (ih _)

theorem exact_poll (sources : List (Queue ⊕ Timers)) (sink : ES) (timeout : Option Duration) :
    Exact now sources sink (poll sources sink timeout ⟨now⟩ : Polled _ ES E FixedClock) := by
  cases sources with
  | nil => exact exact_nil now sink
  | cons source sources =>
      rw [poll, computeTimeout_world, blockingPoll_eq_poll, poll_source_result, poll_source_world]
      exact exact_cons now source sources sink (exact_pollAll now sources _)

/-- **The exact result of a poll.** A poll of queues and timers hands over the first events of the
concatenation of what they have ready, as many as the sink has room for, and leaves each source with
exactly what was not delivered. Polling twice, with room for `a` and then for `b` events, therefore
delivers what one poll with room for `a + b` delivers. -/
theorem poll_exact (sources : List (Queue ⊕ Timers)) :
    (∀ (sink : ES) (timeout : Option Duration),
      let polled : Polled (List (Queue ⊕ Timers)) ES E FixedClock :=
        poll sources sink timeout ⟨now⟩
      polled.result = .ok ()
        ∧ polled.sink
          = Sink.extend sink ((Sink.capacityLeft sink).take (sources.flatMap (ready now)))
        ∧ polled.source.map contents = undeliveredAll now (Sink.capacityLeft sink) sources)
    ∧ ∀ (a b : Nat) (first second whole : ES) (timeout₁ timeout₂ timeout₃ : Option Duration),
      Sink.capacityLeft first = .limited a → Sink.capacityLeft second = .limited b →
      Sink.capacityLeft whole = .limited (a + b) →
      let polled₁ : Polled (List (Queue ⊕ Timers)) ES E FixedClock :=
        poll sources first timeout₁ ⟨now⟩
      let polled₂ : Polled (List (Queue ⊕ Timers)) ES E FixedClock :=
        poll polled₁.source second timeout₂ ⟨now⟩
      let polled₃ : Polled (List (Queue ⊕ Timers)) ES E FixedClock :=
        poll sources whole timeout₃ ⟨now⟩
      let total := sources.flatMap (ready now)
      polled₁.sink = Sink.extend first (total.take a)
        ∧ polled₂.sink = Sink.extend second ((total.drop a).take b)
        ∧ polled₃.sink = Sink.extend whole (total.take a ++ (total.drop a).take b) := by
  constructor
  · intro sink timeout
    have h := @exact_poll ES E _ now _ sources sink timeout
    exact ⟨h.result_eq, h.sink_eq, h.contents_eq⟩
  · intro a b first second whole timeout₁ timeout₂ timeout₃ ha hb hab
    have h₁ := @exact_poll ES E _ now _ sources first timeout₁
    have h₂ := @exact_poll ES E _ now _
      (poll sources first timeout₁ (⟨now⟩ : FixedClock) : Polled _ ES E _).source second timeout₂
    have h₃ := @exact_poll ES E _ now _ sources whole timeout₃
    refine ⟨?_, ?_, ?_⟩
    · rw [h₁.sink_eq, ha, Capacity.take]
    · rw [h₂.sink_eq, h₁.ready_eq, ha, hb, Capacity.take, Capacity.drop]
    · rw [h₃.sink_eq, hab, Capacity.take, List.take_add]

/-- A queue and two timers share three places, and the earlier timer takes the last one, whether
they are polled once or with one place and then two. -/
theorem poll_exact_three_places :
    let sources : List (Queue ⊕ Timers) :=
      [.inl ⟨[⟨⟨7⟩, Ready.readable⟩, ⟨⟨8⟩, Ready.writable⟩]⟩,
        .inr ((Timers.new.addDeadline ⟨1⟩ ⟨4, by decide⟩).addDeadline ⟨2⟩ ⟨3, by decide⟩)]
    let polled : Polled (List (Queue ⊕ Timers)) Bounded Unit FixedClock :=
      poll sources ⟨3, []⟩ none ⟨⟨5, by decide⟩⟩
    let polled₁ : Polled (List (Queue ⊕ Timers)) Bounded Unit FixedClock :=
      poll sources ⟨1, []⟩ none ⟨⟨5, by decide⟩⟩
    let polled₂ : Polled (List (Queue ⊕ Timers)) Bounded Unit FixedClock :=
      poll polled₁.source ⟨2, []⟩ none ⟨⟨5, by decide⟩⟩
    polled.result = .ok ()
      ∧ polled.sink.events
        = [⟨⟨7⟩, Ready.readable⟩, ⟨⟨8⟩, Ready.writable⟩, ⟨⟨2⟩, Ready.timer⟩]
      ∧ polled.source.map contents = undeliveredAll ⟨5, by decide⟩ (.limited 3) sources
      ∧ polled₁.sink.events ++ polled₂.sink.events = polled.sink.events := by
  intro sources polled polled₁ polled₂
  obtain ⟨hexact, hsplit⟩ := @poll_exact Bounded Unit _ ⟨5, by decide⟩ _ sources
  obtain ⟨hresult, -, hcontents⟩ := hexact ⟨3, []⟩ none
  obtain ⟨hfirst, hsecond, hwhole⟩ :=
    hsplit 1 2 ⟨1, []⟩ ⟨2, []⟩ ⟨3, []⟩ none none none rfl rfl rfl
  refine ⟨hresult, by decide +kernel, hcontents, ?_⟩
  rw [hfirst, hsecond, hwhole]
  simp

end Gaea.PollExact
