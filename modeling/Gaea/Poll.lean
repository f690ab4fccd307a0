import Gaea.Event
import Mathlib.Data.List.Forall2

/-!
# Polling a list of sources

`poll` blocks on the first source for at most the smallest of the timeouts it knows of, and then
polls the other sources in turn. It stops at the first error.
-/

namespace Gaea

variable {S ES E W : Type}

def minTimeout : Option Duration → Option Duration → Option Duration
  | some left, some right => some (min left right)
  | some left, none => some left
  | none, some right => some right
  | none, none => none

def computeTimeout (ES E : Type) [Source S ES E W] (timeout : Option Duration) :
    List S → W → Option Duration × W
  | [], world => (timeout, world)
  | source :: sources, world =>
      computeTimeout ES E (minTimeout timeout (Source.maxTimeout ES E source world).1) sources
        (Source.maxTimeout ES E source world).2

def pollAll [Source S ES E W] : List S → ES → W → Polled (List S) ES E W
  | [], sink, world => ⟨[], sink, world, .ok ()⟩
  | source :: sources, sink, world =>
      let first : Polled S ES E W := Source.poll source sink world
      match first.result with
      | .error error => ⟨first.source :: sources, first.sink, first.world, .error error⟩
      | .ok () =>
          let rest : Polled (List S) ES E W := pollAll sources first.sink first.world
          ⟨first.source :: rest.source, rest.sink, rest.world, rest.result⟩

def poll [Source S ES E W] (eventSources : List S) (eventSink : ES) (timeout : Option Duration)
    (world : W) : Polled (List S) ES E W :=
  let computed := computeTimeout ES E timeout eventSources world
  match eventSources with
  | [] => ⟨[], eventSink, computed.2, .ok ()⟩
  | source :: sources =>
      let first : Polled S ES E W := Source.blockingPoll source eventSink computed.1 computed.2
      match first.result with
      | .error error => ⟨first.source :: sources, first.sink, first.world, .error error⟩
      | .ok () =>
          let rest : Polled (List S) ES E W := pollAll sources first.sink first.world
          ⟨first.source :: rest.source, rest.sink, rest.world, rest.result⟩

/-! ## What a poll may do to a source -/

section Relation

/-- A relation that holds between a source and what any poll of it leaves behind. -/
structure PollRelation (ES E W : Type) [Source S ES E W] (R : S → S → Prop) : Prop where
  refl (source : S) : R source source
  poll (source : S) (sink : ES) (world : W) :
    R source (Source.poll source sink world : Polled S ES E W).source
  blockingPoll (source : S) (sink : ES) (timeout : Option Duration) (world : W) :
    R source (Source.blockingPoll source sink timeout world : Polled S ES E W).source

variable [Source S ES E W] {R : S → S → Prop}

omit [Source S ES E W] in
theorem getElem?_of_forall₂ {before after : List S} (h : List.Forall₂ R before after) {i : Nat}
    {source source' : S} (hbefore : before[i]? = some source) (hafter : after[i]? = some source') :
    R source source' := by
  obtain ⟨hi, rfl⟩ := List.getElem?_eq_some_iff.mp hbefore
  obtain ⟨hi', rfl⟩ := List.getElem?_eq_some_iff.mp hafter
  exact h.get hi hi'

theorem PollRelation.forall₂_refl (h : PollRelation ES E W R) (sources : List S) :
    List.Forall₂ R sources sources :=
  List.forall₂_same.mpr fun source _ => h.refl source

theorem PollRelation.forall₂_pollAll (h : PollRelation ES E W R) (sources : List S) (sink : ES)
    (world : W) :
    List.Forall₂ R sources (pollAll sources sink world : Polled (List S) ES E W).source := by
  induction sources generalizing sink world with
  | nil => exact List.Forall₂.nil
  | cons source sources ih =>
      rw [pollAll]
      dsimp only
      split
      · exact .cons (h.poll source sink world) (h.forall₂_refl sources)
      · exact .cons (h.poll source sink world) (ih _ _)

/-- Whatever happens during a poll, each source is polled at most once, so it is related to what is
left of it. -/
theorem PollRelation.forall₂_poll (h : PollRelation ES E W R) (sources : List S) (sink : ES)
    (timeout : Option Duration) (world : W) :
    List.Forall₂ R sources
      (Gaea.poll sources sink timeout world : Polled (List S) ES E W).source := by
  cases sources with
  | nil => exact List.Forall₂.nil
  | cons source sources =>
      rw [Gaea.poll]
      dsimp only
      split
      · exact .cons (h.blockingPoll source sink _ _) (h.forall₂_refl sources)
      · exact .cons (h.blockingPoll source sink _ _) (h.forall₂_pollAll sources _ _)

end Relation

/-! ## Sources that poll alike -/

section Map

/-- Polling `f source` is polling `source` and looking at what is left of it through `f`. -/
structure PollMap {T : Type} (ES E W : Type) [Source S ES E W] [Source T ES E W] (f : S → T) :
    Prop where
  maxTimeout (source : S) (world : W) :
    Source.maxTimeout ES E (f source) world = Source.maxTimeout ES E source world
  poll (source : S) (sink : ES) (world : W) :
    (Source.poll (f source) sink world : Polled T ES E W)
      = (Source.poll source sink world : Polled S ES E W).map f
  blockingPoll (source : S) (sink : ES) (timeout : Option Duration) (world : W) :
    (Source.blockingPoll (f source) sink timeout world : Polled T ES E W)
      = (Source.blockingPoll source sink timeout world : Polled S ES E W).map f

variable {T : Type} [Source S ES E W] [Source T ES E W] {f : S → T}

theorem PollMap.computeTimeout_map (h : PollMap ES E W f) (sources : List S)
    (timeout : Option Duration) (world : W) :
    computeTimeout ES E timeout (sources.map f) world =
      computeTimeout ES E timeout sources world := by
  induction sources generalizing timeout world with
  | nil => rfl
  | cons source sources ih => rw [List.map_cons, computeTimeout, h.maxTimeout, ih, computeTimeout]

theorem PollMap.pollAll_map (h : PollMap ES E W f) (sources : List S) (sink : ES) (world : W) :
    (pollAll (sources.map f) sink world : Polled (List T) ES E W)
      = (pollAll sources sink world : Polled (List S) ES E W).map (List.map f) := by
  induction sources generalizing sink world with
  | nil => rfl
  | cons source sources ih =>
      rw [List.map_cons, pollAll, pollAll, h.poll]
      simp only [Polled.map]
      cases (Source.poll source sink world : Polled S ES E W).result with
      | error error => rfl
      | ok _ => simp only [ih, Polled.map, List.map_cons]

theorem PollMap.poll_map (h : PollMap ES E W f) (sources : List S) (sink : ES)
    (timeout : Option Duration) (world : W) :
    (Gaea.poll (sources.map f) sink timeout world : Polled (List T) ES E W)
      = (Gaea.poll sources sink timeout world : Polled (List S) ES E W).map (List.map f) := by
  cases sources with
  | nil => rfl
  | cons source sources =>
      have hcomputed := h.computeTimeout_map (source :: sources) timeout world
      rw [List.map_cons] at hcomputed
      simp only [Gaea.poll, List.map_cons, hcomputed, h.blockingPoll, h.pollAll_map, Polled.map]
      cases (Source.blockingPoll source sink _ _ : Polled S ES E W).result with
      | error error => rfl
      | ok _ => rfl

omit [Source T ES E W] in
theorem PollMap.refl : PollMap ES E W (id : S → S) :=
  ⟨fun _ _ => rfl, fun _ _ _ => rfl, fun _ _ _ _ => rfl⟩

theorem PollMap.sum_map {S' T' : Type} [Source S' ES E W] [Source T' ES E W] {g : S' → T'}
    (hf : PollMap ES E W f) (hg : PollMap ES E W g) : PollMap ES E W (Sum.map f g) := by
  constructor
  · intro source world
    cases source with
    | inl source => exact hf.maxTimeout source world
    | inr source => exact hg.maxTimeout source world
  · intro source sink world
    cases source with
    | inl source => exact congrArg (Polled.map Sum.inl) (hf.poll source sink world)
    | inr source => exact congrArg (Polled.map Sum.inr) (hg.poll source sink world)
  · intro source sink timeout world
    cases source with
    | inl source => exact congrArg (Polled.map Sum.inl) (hf.blockingPoll source sink timeout world)
    | inr source => exact congrArg (Polled.map Sum.inr) (hg.blockingPoll source sink timeout world)

end Map

end Gaea
