import Gaea.Library.Run
import Mathlib.Data.Set.Basic

/-!
# Traces of labelled step relations

A step shows a list of observations, which may be empty, and a run shows those of its steps one
after the other. A system shows no more than another if their states can be related such that every
step of the one is matched by a run of the other that shows the same.
-/

namespace Transition

universe u v w

variable {State State' : Type u} {Label Label' : Type v} {Observation : Type w}
  {Step : State → Label → State → Prop} {Step' : State' → Label' → State' → Prop}
  {observe : Label → List Observation} {observe' : Label' → List Observation}

theorem Run.append {init s t : State} {labels labels' : List Label}
    (run : Run Step init labels s) (rest : Run Step s labels' t) :
    Run Step init (labels ++ labels') t := by
  induction rest with
  | nil =>
      rw [List.append_nil]
      exact run
  | snoc _ step ih =>
      rw [← List.append_assoc]
      exact ih.snoc step

theorem Run.single {s t : State} {label : Label} (step : Step s label t) :
    Run Step s [label] t := Run.nil.snoc step

def Traces (Step : State → Label → State → Prop) (observe : Label → List Observation)
    (init : State) : Set (List Observation) :=
  {trace | ∃ labels s, Run Step init labels s ∧ labels.flatMap observe = trace}

/-- From `s` the system can show a list of observations, and is then related to `t` by `R`. -/
def Shows (Step : State → Label → State → Prop) (observe : Label → List Observation)
    (R : State → Prop) (s : State) (observations : List Observation) : Prop :=
  ∃ labels t, Run Step s labels t ∧ labels.flatMap observe = observations ∧ R t

theorem Shows.nil {R : State → Prop} {s : State} (h : R s) : Shows Step observe R s [] :=
  ⟨[], s, Run.nil, rfl, h⟩

theorem Shows.single {R : State → Prop} {s t : State} {label : Label} (step : Step s label t)
    (h : R t) : Shows Step observe R s (observe label) :=
  ⟨[label], t, Run.single step, by simp, h⟩

theorem Shows.mono {R R' : State → Prop} {s : State} {observations : List Observation}
    (h : Shows Step observe R s observations) (himp : ∀ t, R t → R' t) :
    Shows Step observe R' s observations := by
  obtain ⟨labels, t, run, hshown, ht⟩ := h
  exact ⟨labels, t, run, hshown, himp t ht⟩

theorem Shows.bind {R R' : State → Prop} {s : State} {first second : List Observation}
    (h : Shows Step observe R s first) (hrest : ∀ t, R t → Shows Step observe R' t second) :
    Shows Step observe R' s (first ++ second) := by
  obtain ⟨labels, t, run, rfl, ht⟩ := h
  obtain ⟨labels', u, run', rfl, hu⟩ := hrest t ht
  exact ⟨labels ++ labels', u, run.append run', List.flatMap_append, hu⟩

/-- **Simulation.** If every step whose observations are all allowed can be matched, then so can
every trace whose observations are all allowed. -/
theorem traces_subset {Allowed : Observation → Prop} (R : State → State' → Prop) {init : State}
    {init' : State'} (hinit : R init init')
    (hstep : ∀ s s' label t, R s s' → Step s label t → (∀ o ∈ observe label, Allowed o) →
      Shows Step' observe' (R t) s' (observe label)) :
    {trace ∈ Traces Step observe init | ∀ o ∈ trace, Allowed o}
      ⊆ Traces Step' observe' init' := by
  have hrun (labels : List Label) (s : State) (run : Run Step init labels s) :
      (∀ o ∈ labels.flatMap observe, Allowed o) →
        Shows Step' observe' (R s) init' (labels.flatMap observe) := by
    induction run with
    | nil => exact fun _ => .nil hinit
    | @snoc labels s t label _ step ih =>
        rw [List.flatMap_append, List.flatMap_singleton]
        intro hallowed
        exact (ih fun o hmem => hallowed o (List.mem_append_left _ hmem)).bind fun s' hs =>
          hstep s s' label t hs step fun o hmem => hallowed o (List.mem_append_right _ hmem)
  rintro trace ⟨⟨labels, s, run, rfl⟩, hallowed⟩
  obtain ⟨labels', s', run', hshown, -⟩ := hrun labels s run hallowed
  exact ⟨labels', s', run', hshown⟩

/-- If every step can be matched, then so can every trace. -/
theorem all_traces_subset (R : State → State' → Prop) {init : State} {init' : State'}
    (hinit : R init init')
    (hstep : ∀ s s' label t, R s s' → Step s label t →
      Shows Step' observe' (R t) s' (observe label)) :
    Traces Step observe init ⊆ Traces Step' observe' init' := by
  intro trace h
  have hallowed : ∀ o ∈ trace, (fun _ : Observation => True) o := fun _ _ => trivial
  exact traces_subset R hinit (fun s s' label t hs step _ => hstep s s' label t hs step)
    ⟨h, hallowed⟩

end Transition
