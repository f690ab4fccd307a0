import Mathlib.Data.List.DropRight

/-!
# Runs of a labelled step relation

A run is a finite sequence of steps from a fixed state together with the labels of its steps. What a
run has done is a function of its labels, so an invariant relates the labels to the state reached.
-/

namespace Transition

universe u v

variable {State : Type u} {Label : Type v}

/-- The states reached from `init`, with the labels of the steps taken. -/
inductive Run (Step : State → Label → State → Prop) (init : State) : List Label → State → Prop where
  | nil : Run Step init [] init
  | snoc {labels : List Label} {s t : State} {label : Label} :
      Run Step init labels s → Step s label t → Run Step init (labels ++ [label]) t

variable {Step : State → Label → State → Prop} {init : State}

theorem Run.invariant {I : List Label → State → Prop} (hinit : I [] init)
    (hstep : ∀ labels s label t, I labels s → Step s label t → I (labels ++ [label]) t)
    {labels : List Label} {s : State} (run : Run Step init labels s) : I labels s := by
  induction run with
  | nil => exact hinit
  | snoc _ step ih => exact hstep _ _ _ _ ih step

theorem Run.exists_step {labels : List Label} {s : State} (run : Run Step init labels s)
    {label : Label} (hmem : label ∈ labels) : ∃ s t, Step s label t := by
  induction run with
  | nil => cases hmem
  | @snoc labels s t last _ step ih =>
      rcases List.mem_append.mp hmem with hmem | hmem
      · exact ih hmem
      · rw [List.mem_singleton.mp hmem]
        exact ⟨s, t, step⟩

theorem Run.before_step {before after : List Label} {label : Label} {s : State}
    (run : Run Step init (before ++ label :: after) s) :
    ∃ t u, Run Step init before t ∧ Step t label u := by
  generalize hlabels : before ++ label :: after = labels at run
  induction run generalizing after with
  | nil => cases before <;> cases hlabels
  | @snoc labels t u last run step ih =>
      rcases List.eq_nil_or_concat after with rfl | ⟨after, last', rfl⟩
      · obtain ⟨rfl, hlast⟩ := List.append_inj' hlabels rfl
        cases hlast
        exact ⟨t, u, run, step⟩
      · rw [List.concat_eq_append, ← List.cons_append, ← List.append_assoc] at hlabels
        exact ih (List.append_inj' hlabels rfl).1

theorem Run.mono {Step' : State → Label → State → Prop}
    (hstep : ∀ s label t, Step s label t → Step' s label t) {labels : List Label} {s : State}
    (run : Run Step init labels s) : Run Step' init labels s := by
  induction run with
  | nil => exact Run.nil
  | snoc _ step ih => exact ih.snoc (hstep _ _ _ step)

/-- A step by step simulation carries runs over. -/
theorem Run.map {State' Label' : Type*} {Step' : State' → Label' → State' → Prop}
    (f : State → State') (g : Label → Label')
    (hstep : ∀ s label t, Step s label t → Step' (f s) (g label) (f t))
    {labels : List Label} {s : State} (run : Run Step init labels s) :
    Run Step' (f init) (labels.map g) (f s) := by
  induction run with
  | nil => exact Run.nil
  | snoc _ step ih =>
      rw [List.map_append]
      exact ih.snoc (hstep _ _ _ step)

/-- A simulation may rest on an invariant of the states it starts from. -/
theorem Run.map_of_invariant {State' Label' : Type*} {Step' : State' → Label' → State' → Prop}
    (I : State → Prop) (f : State → State') (g : Label → Label') (hinit : I init)
    (hstep : ∀ s label t, I s → Step s label t → I t ∧ Step' (f s) (g label) (f t))
    {labels : List Label} {s : State} (run : Run Step init labels s) :
    I s ∧ Run Step' (f init) (labels.map g) (f s) := by
  induction run with
  | nil => exact ⟨hinit, Run.nil⟩
  | snoc _ step ih =>
      obtain ⟨hs, hrun⟩ := ih
      obtain ⟨ht, hstep'⟩ := hstep _ _ _ hs step
      rw [List.map_append]
      exact ⟨ht, hrun.snoc hstep'⟩

/-- The labels after the last one that satisfies `p`. -/
def since (p : Label → Bool) (labels : List Label) : List Label :=
  labels.rtakeWhile fun label => !p label

theorem mem_of_mem_since {p : Label → Bool} {labels : List Label} {label : Label}
    (h : label ∈ since p labels) : label ∈ labels :=
  (List.rtakeWhile_suffix _ labels).subset h

theorem since_snoc_of_neg {p : Label → Bool} (labels : List Label) {label : Label}
    (h : p label = false) : since p (labels ++ [label]) = since p labels ++ [label] := by
  rw [since, List.rtakeWhile_concat, h]
  rfl

theorem since_snoc_of_pos {p : Label → Bool} (labels : List Label) {label : Label}
    (h : p label = true) : since p (labels ++ [label]) = [] := by
  rw [since, List.rtakeWhile_concat, h]
  rfl

theorem since_map {Label' : Type*} (p : Label' → Bool) (g : Label → Label') (labels : List Label) :
    since p (labels.map g) = (since (p ∘ g) labels).map g := by
  induction labels using List.reverseRecOn with
  | nil => rfl
  | append_singleton labels label ih =>
      rw [List.map_append, List.map_singleton]
      by_cases hp : p (g label) = true
      · rw [since_snoc_of_pos _ hp, since_snoc_of_pos labels hp, List.map_nil]
      · have hp := eq_false_of_ne_true hp
        rw [since_snoc_of_neg _ hp, since_snoc_of_neg labels hp, ih, List.map_append,
          List.map_singleton]

end Transition
