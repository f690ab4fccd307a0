import Gaea.Proof.TimersTimeout

/-!
# Timers and the order in which they were added

What `max_timeout` and `poll` do is determined by the pending deadlines. `remove_deadline` searches
the array of the heap instead, whose layout goes back to the order of the insertions, and takes the
first deadline with the given id that it meets.
-/

namespace Gaea.Timers

inductive Op : Type 1 where
  | addDeadline (id : Id) (deadline : Instant)
  | removeDeadline (id : Id)
  | maxTimeout {W : Type} [Clock W] (world : W)
  | poll {ES : Type} [Sink ES] (sink : ES) (now : Instant)

/-- What a caller gets to see of an operation. -/
inductive Answer where
  | done
  | timeout (timeout : Option Duration)
  | events (handed : List Event)
deriving DecidableEq

def perform (timers : Timers) : Op → Timers × Answer
  | .addDeadline id deadline => (timers.addDeadline id deadline, .done)
  | .removeDeadline id => (timers.removeDeadline id, .done)
  | @Op.maxTimeout _ _ world => (timers, .timeout (timers.maxTimeout world).1)
  | @Op.poll _ _ sink now => ((timers.poll now sink).1, .events (timers.handed now sink))

def answers (timers : Timers) : List Op → List Answer
  | [] => []
  | op :: ops => (timers.perform op).2 :: answers (timers.perform op).1 ops

def addAll (pairs : List (Id × Instant)) : Timers :=
  pairs.foldl (fun timers pair => timers.addDeadline pair.1 pair.2) new

/-! ## What the pending deadlines determine -/

variable {first second : Timers}

theorem peek_congr (hpending : first.pending = second.pending) : first.peek = second.peek := by
  cases hpeek : second.peek with
  | none => rw [peek_eq_none_iff, hpending, ← peek_eq_none_iff, hpeek]
  | some d =>
      refine peek_of_le (hpending ▸ mem_of_peek hpeek) fun e he => le_of_peek hpeek ?_
      rwa [← hpending]

theorem ready_congr (hpending : first.pending = second.pending) (now : Instant) :
    first.ready now = second.ready now := by
  rw [ready, ready, hpending]

theorem pending_poll_congr {ES : Type} [Sink ES] (hpending : first.pending = second.pending)
    (now : Instant) (sink : ES) :
    (first.poll now sink).1.pending = (second.poll now sink).1.pending := by
  have hdelivered : first.delivered now sink = second.delivered now sink := by
    rw [delivered, delivered, ready_congr hpending]
  have hsplit := pending_poll now first sink
  rw [hpending, pending_poll now second sink, hdelivered] at hsplit
  exact (Multiset.add_right_inj.mp hsplit).symm

/-! ## Removal -/

/-- The deadlines with the id are all the same, or the earliest of all deadlines is one of them. -/
def Determined (pending : Multiset Deadline) (id : Id) : Prop :=
  (∀ d ∈ pending, ∀ e ∈ pending, d.id = id → e.id = id → d = e)
    ∨ ∃ d ∈ pending, d.id = id ∧ ∀ e ∈ pending, d ≤ e

instance (pending : Multiset Deadline) (id : Id) : Decidable (Determined pending id) :=
  haveI : Decidable (∃ d ∈ pending, d.id = id ∧ ∀ e ∈ pending, d ≤ e) :=
    Multiset.decidableExistsMultiset
  inferInstanceAs (Decidable (_ ∨ _))

theorem pending_removeDeadline_congr (hpending : first.pending = second.pending) {id : Id}
    (hdetermined : Determined first.pending id) :
    (first.removeDeadline id).pending = (second.removeDeadline id).pending := by
  by_cases hmem : ∃ d ∈ first.pending, d.id = id
  · obtain ⟨d, hd, hfirst⟩ := pending_removeDeadline_of_mem hmem
    obtain ⟨e, he, hsecond⟩ := pending_removeDeadline_of_mem (hpending ▸ hmem)
    have hdpending : d ∈ first.pending := hfirst ▸ Multiset.mem_cons_self d _
    have hepending : e ∈ first.pending := by
      rw [hpending, hsecond]
      exact Multiset.mem_cons_self e _
    rcases hdetermined with hsame | ⟨root, hroot, hid, hmin⟩
    -- either array gives a deadline with the id, and there is only one such
    · obtain rfl := hsame d hdpending e hepending hd he
      rw [hpending, hsecond] at hfirst
      exact ((Multiset.cons_inj_right d).mp hfirst).symm
    -- either array has the earliest deadline at its start, where the search meets it first
    · have hpeek := peek_of_le hroot hmin
      have hfirst := pending_removeDeadline_of_peek hpeek hid
      have hsecond := pending_removeDeadline_of_peek ((peek_congr hpending).symm.trans hpeek) hid
      rw [hpending, hsecond] at hfirst
      exact ((Multiset.cons_inj_right root).mp hfirst).symm
  · have hnone : ∀ d ∈ first.pending, d.id ≠ id := fun d hd hid => hmem ⟨d, hd, hid⟩
    rw [removeDeadline_of_notMem hnone, removeDeadline_of_notMem (hpending ▸ hnone), hpending]

/-- Every removal meets deadlines among which its choice is determined. -/
def AllDetermined (timers : Timers) : List Op → Prop
  | [] => True
  | op :: ops =>
      (match op with
        | .removeDeadline id => Determined timers.pending id
        | _ => True)
      ∧ AllDetermined (timers.perform op).1 ops

theorem perform_congr (hpending : first.pending = second.pending) (op : Op)
    (hdetermined : ∀ id, op = .removeDeadline id → Determined first.pending id) :
    (first.perform op).2 = (second.perform op).2
      ∧ (first.perform op).1.pending = (second.perform op).1.pending := by
  cases op with
  | addDeadline id deadline =>
      refine ⟨rfl, ?_⟩
      rw [perform, perform, pending_addDeadline, pending_addDeadline, hpending]
  | removeDeadline id => exact ⟨rfl, pending_removeDeadline_congr hpending (hdetermined id rfl)⟩
  | maxTimeout world =>
      refine ⟨?_, hpending⟩
      rw [perform, perform, maxTimeout_eq, maxTimeout_eq, peek_congr hpending]
  | poll sink now =>
      refine ⟨?_, pending_poll_congr hpending now sink⟩
      rw [perform, perform, handed_eq, handed_eq, ready_congr hpending]

theorem answers_congr (hpending : first.pending = second.pending) (ops : List Op)
    (hdetermined : AllDetermined first ops) : first.answers ops = second.answers ops := by
  induction ops generalizing first second with
  | nil => rfl
  | cons op ops ih =>
      obtain ⟨hop, hops⟩ := hdetermined
      obtain ⟨hanswer, hrest⟩ := perform_congr hpending op (by rintro id rfl; exact hop)
      rw [answers, answers, hanswer, ih hrest hops]

/-! ## The order of the insertions -/

theorem pending_addAll (pairs : List (Id × Instant)) :
    (addAll pairs).pending = (pairs.map fun pair => ⟨pair.2, pair.1⟩ : List Deadline) := by
  have hfold (timers : Timers) :
      (pairs.foldl (fun timers pair => timers.addDeadline pair.1 pair.2) timers).pending
        = (pairs.map fun pair => ⟨pair.2, pair.1⟩ : List Deadline) + timers.pending := by
    induction pairs generalizing timers with
    | nil => exact (Multiset.zero_add _).symm
    | cons pair pairs ih =>
        rw [List.foldl_cons, ih, pending_addDeadline, List.map_cons, ← Multiset.cons_coe,
          Multiset.cons_add, Multiset.add_cons]
  rw [addAll, hfold, pending_new, Multiset.add_zero]

/-- **The order of the insertions does not show, but in what an ambiguous removal takes.** -/
theorem answers_addAll_of_perm {pairs pairs' : List (Id × Instant)} (hperm : pairs.Perm pairs')
    (ops : List Op) (hdetermined : AllDetermined (addAll pairs) ops) :
    (addAll pairs).answers ops = (addAll pairs').answers ops := by
  refine answers_congr ?_ ops hdetermined
  rw [pending_addAll, pending_addAll]
  exact Multiset.coe_eq_coe.mpr (hperm.map _)

theorem answers_addAll_of_perm_earliest :
    let middle : Id × Instant := (⟨0⟩, ⟨2, by decide⟩)
    let late : Id × Instant := (⟨0⟩, ⟨3, by decide⟩)
    let ops : List Op := [.removeDeadline ⟨0⟩, .maxTimeout (⟨⟨2, by decide⟩⟩ : FixedClock),
      .removeDeadline ⟨0⟩, .poll ([] : List Event) ⟨3, by decide⟩]
    (addAll [middle, late]).answers ops = (addAll [late, middle]).answers ops := by
  intro middle late ops
  have hfirst : Determined (addAll [middle, late]).pending ⟨0⟩ := by decide +kernel
  have hsecond : Determined ((addAll [middle, late]).removeDeadline ⟨0⟩).pending ⟨0⟩ := by
    decide +kernel
  exact answers_addAll_of_perm (List.Perm.swap late middle []) ops
    ⟨hfirst, trivial, hsecond, trivial, trivial⟩

/-- Removing id 0 takes the deadline at 2 or the one at 3, whichever was added first after the
deadline at 1, which stays at the root. -/
theorem answers_addAll_of_perm_ambiguous :
    let early : Id × Instant := (⟨9⟩, ⟨1, by decide⟩)
    let middle : Id × Instant := (⟨0⟩, ⟨2, by decide⟩)
    let late : Id × Instant := (⟨0⟩, ⟨3, by decide⟩)
    let ops : List Op := [.removeDeadline ⟨0⟩, .poll ([] : List Event) ⟨2, by decide⟩]
    [early, middle, late].Perm [early, late, middle]
      ∧ (addAll [early, middle, late]).answers ops
        ≠ (addAll [early, late, middle]).answers ops := by
  intro early middle late ops
  refine ⟨(List.Perm.swap late middle []).cons early, ?_⟩
  decide +kernel

end Gaea.Timers
