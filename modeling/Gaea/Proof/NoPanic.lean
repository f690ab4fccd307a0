import Gaea.Panics
import Gaea.Proof.TimersSpec

/-!
# No operation panics but one

Each call that may panic is guarded: by a comparison with the clock reading, by a successful `peek`,
by a search of the same array, or by a minimum with the length. The sum in `add_timeout` is not.
-/

namespace Gaea.Panicking

open Collections

/-! ## The guarded calls -/

theorem removeDeadline_eq (timers : Timers) (id : Id) :
    removeDeadline timers id = .ok (timers.removeDeadline id) := by
  unfold removeDeadline Timers.removeDeadline
  rw [Array.findIdx?_eq_map_findFinIdx?_val, ← Timers.position]
  cases hposition : timers.position id with
  | none => rfl
  | some index =>
      -- `swap_remove` is in range, and what it removes is what was searched for
      have hid := (Array.findFinIdx?_eq_some_iff.mp hposition).1
      have hassert : debugAssert ((OrderDual.ofDual timers.deadlines.intoVec[index]).id == id)
          = .ok () := if_pos hid
      simp only [Option.map_some, swapRemove, index.isLt, dif_pos]
      change (debugAssert _ >>= _) = _
      rw [Fin.getElem_fin] at hassert
      rw [hassert]
      rfl

theorem maxTimeout_eq {W : Type} [Clock W] (timers : Timers) (world : W) :
    maxTimeout timers world = .ok (timers.maxTimeout world) := by
  unfold maxTimeout Timers.maxTimeout Timers.timeUntil
  cases timers.peek with
  | none => rfl
  | some d =>
      by_cases hexpired : d.deadline ≤ (Clock.now world).1
      · simp only [hexpired, if_true, dif_pos]
        rfl
      · have hlater : (Clock.now world).1 ≤ d.deadline := (not_le.mp hexpired).le
        simp only [hexpired, if_false, dif_neg, not_false_eq_true, durationSince, dif_pos hlater]
        rfl

theorem pollLoop_eq {ES : Type} [Sink ES] (now : Instant) (rounds : Nat) (timers : Timers)
    (sink : ES) :
    pollLoop now rounds timers sink = .ok (Timers.pollLoop now rounds timers sink) := by
  induction rounds generalizing timers sink with
  | zero => rfl
  | succ rounds ih =>
      rw [pollLoop, Timers.pollLoop]
      cases hpeek : timers.peek with
      | none => rfl
      | some d =>
          by_cases hexpired : d.deadline ≤ now
          · -- `pop` has something to give after a successful `peek`
            obtain ⟨rest, hpop⟩ := Timers.exists_pop_of_peek hpeek
            simp only [hexpired, if_true, hpop]
            exact ih rest (Sink.add sink d.toEvent)
          · simp only [hexpired, if_false]
            rfl

theorem pollTimers_eq {ES : Type} [Sink ES] (now : Instant) (timers : Timers) (sink : ES) :
    pollTimers now timers sink = .ok (timers.poll now sink) :=
  pollLoop_eq now _ timers sink

theorem pollQueue_eq {ES : Type} [Sink ES] (queue : Queue) (sink : ES) :
    pollQueue queue sink = .ok (queue.poll sink) := by
  have hrange : queue.drainLen sink ≤ queue.events.length := Capacity.min_le _ _
  rw [pollQueue, drain, if_pos hrange]
  rfl

/-! ## The sum -/

/-- The clock reading and the timeout have a sum that is no `Instant`. -/
def Op.Overflows : Op → Prop
  | .addTimeout _ timeout now => nanosBound ≤ now.nanos + timeout.nanos
  | _ => False

theorem addInstant_eq_error_iff {now : Instant} {timeout : Duration} {p : Panic} :
    addInstant now timeout = .error p ↔ p = .overflow ∧ nanosBound ≤ now.nanos + timeout.nanos := by
  unfold addInstant Instant.add
  by_cases hsum : now.nanos + timeout.nanos < nanosBound
  · simp [hsum]
  · simp [hsum, not_lt.mp hsum, eq_comm]

theorem bind_pure_eq_error_iff {α β : Type} {x : Except Panic α} (f : α → β) {p : Panic} :
    (x >>= fun a => pure (f a)) = .error p ↔ x = .error p := by
  cases x with
  | error q =>
      change Except.error q = Except.error p ↔ Except.error q = Except.error p
      rw [Except.error.injEq, Except.error.injEq]
  | ok a => exact iff_of_false (fun h => by cases h) (fun h => by cases h)

theorem addTimeout_eq_error_iff {timers : Timers} {id : Id} {timeout : Duration} {now : Instant}
    {p : Panic} :
    addTimeout timers id timeout now = .error p
      ↔ p = .overflow ∧ nanosBound ≤ now.nanos + timeout.nanos := by
  rw [addTimeout, bind_pure_eq_error_iff, addInstant_eq_error_iff]

/-! ## Every operation, and every run -/

theorem perform_eq_error_iff (s : State) (op : Op) (p : Panic) :
    perform s op = .error p ↔ p = .overflow ∧ op.Overflows := by
  have hok (s' : State) (hperform : perform s op = .ok s') (hno : ¬ op.Overflows) :
      perform s op = .error p ↔ p = .overflow ∧ op.Overflows := by
    rw [hperform]
    exact iff_of_false (fun h => by cases h) (fun h => hno h.2)
  cases op with
  | add event => exact hok _ rfl id
  | queueMaxTimeout => exact hok _ rfl id
  | pollQueue sink =>
      refine hok { s with queue := (s.queue.poll sink).1 } ?_ id
      rw [perform, pollQueue_eq]
      rfl
  | addDeadline id deadline => exact hok _ rfl fun h => h
  | addTimeout id timeout now =>
      rw [Op.Overflows, perform, bind_pure_eq_error_iff, addTimeout_eq_error_iff]
  | removeDeadline id =>
      refine hok { s with timers := s.timers.removeDeadline id } ?_ fun h => h
      rw [perform, removeDeadline_eq]
      rfl
  | timersMaxTimeout world =>
      refine hok s ?_ id
      rw [perform, maxTimeout_eq]
      rfl
  | pollTimers sink now =>
      refine hok { s with timers := (s.timers.poll now sink).1 } ?_ id
      rw [perform, pollTimers_eq]
      rfl

theorem run_eq_error_iff (s : State) (ops : List Op) (p : Panic) :
    run s ops = .error p ↔ p = .overflow ∧ ∃ op ∈ ops, op.Overflows := by
  induction ops generalizing s with
  | nil => exact iff_of_false (fun h => by cases h) (by simp)
  | cons op ops ih =>
      rw [run, List.foldlM_cons]
      cases hperform : perform s op with
      | error q =>
          obtain ⟨rfl, hoverflows⟩ := (perform_eq_error_iff s op q).mp hperform
          constructor
          · intro herror
            exact ⟨(Except.error.inj herror).symm, op, List.mem_cons_self, hoverflows⟩
          · rintro ⟨rfl, -⟩
            rfl
      | ok s' =>
          have hno : ¬ op.Overflows := by
            intro hoverflows
            rw [(perform_eq_error_iff s op .overflow).mpr ⟨rfl, hoverflows⟩] at hperform
            cases hperform
          change run s' ops = .error p ↔ _
          rw [ih s', List.exists_mem_cons_iff, or_iff_right hno]

/-- **The only panic is the sum of `add_timeout`.** A program made of the operations of `Queue` and
`Timers` panics exactly when it adds a timeout to a clock reading and their sum cannot be
represented. -/
theorem panics_iff_overflows (ops : List Op) (p : Panic) :
    run State.new ops = .error p ↔ p = .overflow ∧ ∃ op ∈ ops, op.Overflows :=
  run_eq_error_iff State.new ops p

/-- The longest `Duration` overflows at any clock reading but the earliest. -/
theorem add_longest_timeout_panics :
    run State.new [.addTimeout ⟨0⟩ ⟨nanosBound - 1, by decide⟩ ⟨1, by decide⟩]
      = .error .overflow := rfl

end Gaea.Panicking
