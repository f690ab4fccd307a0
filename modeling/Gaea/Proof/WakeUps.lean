import Gaea.Sys.Awakener

/-!
# Wake-ups are neither lost nor invented

Calls of `wake` by any number of clones interleave with polls at every read and write. A call that
finds the file full drains it, and with it the wake-ups of others, but it does not return before it
has written again.
-/

namespace Gaea.Sys

open Transition Notifier

variable {Caller : Type} [DecidableEq Caller]

/-! ## The eventfd awakener -/

namespace Eventfd

theorem Counter.write_ok {before after : Counter} {n : Nat}
    (hwrite : before.write = (.ok n, after)) : after.count = before.count + 1 := by
  unfold Counter.write at hwrite
  split at hwrite
  · rw [← (Prod.mk.inj hwrite).2]
  · cases (Prod.mk.inj hwrite).1

theorem Counter.write_error {before after : Counter} {err : ErrorKind}
    (hwrite : before.write = (.error err, after)) : err = .wouldBlock := by
  unfold Counter.write at hwrite
  split at hwrite
  · cases (Prod.mk.inj hwrite).1
  · cases (Prod.mk.inj hwrite).1
    rfl

theorem Counter.read_error {before after : Counter} {err : ErrorKind}
    (hread : before.read = (.error err, after)) : err = .wouldBlock := by
  unfold Counter.read at hread
  split at hread
  · cases (Prod.mk.inj hread).1
    rfl
  · cases (Prod.mk.inj hread).1

theorem lawful : Lawful Counter.device Awakener.program where
  readable_of_write {before after answer} hwrite hsucceeded := by
    cases answer with
    | error err => cases hsucceeded
    | ok n => simp [Counter.device, Counter.write_ok hwrite]
  write_of_returned {point before after answer result} hperform hnext := by
    cases point with
    | wake =>
        cases answer with
        | ok n => exact ⟨rfl, rfl⟩
        | error err =>
            cases Counter.write_error hperform
            cases hnext
    | reset =>
        cases answer with
        | ok n => cases hnext
        | error err =>
            cases Counter.read_error hperform
            cases hnext

/-- **The eventfd awakener neither loses nor invents a wake-up.** Whatever the counter starts at, if
no call is in progress and one has returned `Ok` since the last reported event, the next poll with
room reports an event. Every reported event is preceded by a successful write of a call made since
the event before it. -/
theorem eventfd_wake_ups {counter : Counter} {labels : List (Label Caller Transferred ErrorKind)}
    {s : State Caller Counter Point}
    (run : Run (Step Counter.device Awakener.program) ⟨counter, false, fun _ => none⟩ labels s) :
    (s.Quiet → (∃ label ∈ since Label.reports labels, label.ReturnedOk) →
      ∀ reported t, Step Counter.device Awakener.program s
        (.poll reported : Label Caller Transferred ErrorKind) t → reported = true)
    ∧ ∀ before after, labels = before ++ .poll true :: after →
      ∃ label ∈ since Label.reports before, label.Wrote Counter.device := by
  constructor
  · intro hquiet hreturned reported t step
    exact poll_reports lawful run hquiet hreturned step
  · rintro before after rfl
    exact wrote_of_report lawful run

/-- A call that finds the counter at its maximum resets it and wakes again. -/
theorem eventfd_wake_ups_at_overflow :
    ∃ s : State Unit Counter Point,
      Run (Step Counter.device Awakener.program) ⟨⟨maxCounter, le_rfl⟩, false, fun _ => none⟩
        [.call (), .io () .write (.error .wouldBlock) none, .io () .read (.ok 8) none,
          .io () .write (.ok 8) (some (.ok ()))] s
        ∧ s.Quiet ∧ ∀ reported t, Step Counter.device Awakener.program s
          (.poll reported : Label Unit Transferred ErrorKind) t → reported = true := by
  let state (count : Fin (maxCounter + 1)) (marked : Bool) (call : Option Point) :
      State Unit Counter Point := ⟨⟨count, Nat.le_of_lt_succ count.isLt⟩, marked, fun _ => call⟩
  have hfull : maxCounter < maxCounter + 1 := Nat.lt_succ_self _
  have hblocks : (⟨maxCounter, le_rfl⟩ : Counter).write
      = (.error .wouldBlock, ⟨maxCounter, le_rfl⟩) := by simp [Counter.write]
  have hcall : Step Counter.device Awakener.program (state ⟨_, hfull⟩ false none)
      (.call () : Label Unit Transferred ErrorKind) (state ⟨_, hfull⟩ false (some .wake)) :=
    .call _ () rfl
  have hwake : Step Counter.device Awakener.program (state ⟨_, hfull⟩ false (some .wake))
      (.io () .write (.error .wouldBlock) none) (state ⟨_, hfull⟩ false (some .reset)) :=
    .io _ () Point.wake _ _ rfl hblocks
  have hreset : Step Counter.device Awakener.program (state ⟨_, hfull⟩ false (some .reset))
      (.io () .read (.ok 8) none) (state 0 false (some .wake)) :=
    .io _ () Point.reset _ _ rfl rfl
  have hagain : Step Counter.device Awakener.program (state 0 false (some .wake))
      (.io () .write (.ok 8) (some (.ok ()))) (state 1 true none) :=
    .io _ () Point.wake _ _ rfl rfl
  have hrun := (((Run.nil.snoc hcall).snoc hwake).snoc hreset).snoc hagain
  exact ⟨_, hrun, fun _ => rfl, (eventfd_wake_ups hrun).1 (fun _ => rfl)
    ⟨_, List.mem_of_getElem? (i := 3) rfl, rfl⟩⟩

end Eventfd

/-! ## The pipe awakener -/

namespace Pipe

variable {capacity : Nat}

theorem Buffer.write_ok {before after : Buffer capacity} {n : Nat}
    (hwrite : before.write = (.ok n, after)) : after.fill = before.fill + 1 := by
  unfold Buffer.write at hwrite
  split at hwrite
  · rw [← (Prod.mk.inj hwrite).2]
  · cases (Prod.mk.inj hwrite).1

theorem Buffer.write_error {before after : Buffer capacity} {err : ErrorKind}
    (hwrite : before.write = (.error err, after)) : err = .wouldBlock := by
  unfold Buffer.write at hwrite
  split at hwrite
  · cases (Prod.mk.inj hwrite).1
  · cases (Prod.mk.inj hwrite).1
    rfl

theorem lawful : Lawful (Buffer.device Awakener.bufLen capacity) Awakener.program where
  readable_of_write {before after answer} hwrite hsucceeded := by
    cases answer with
    | error err => cases hsucceeded
    | ok n =>
        rcases hwrite with hwrite | ⟨hinterrupted, -⟩
        · simp [Buffer.device, Buffer.write_ok hwrite]
        · cases hinterrupted
  write_of_returned {point before after answer result} hperform hnext := by
    cases point with
    | wake =>
        cases answer with
        | ok n => exact ⟨rfl, rfl⟩
        | error err =>
            rcases hperform with hwrite | ⟨hinterrupted, -⟩
            · cases Buffer.write_error hwrite
              cases hnext
            · cases hinterrupted
              cases hnext
    | empty =>
        -- `empty` never returns from the call, whatever its read gives
        cases answer with
        | error err => cases hnext
        | ok n =>
            change (if n > 0 then _ else _) = _ at hnext
            split at hnext <;> cases hnext

/-- **The pipe awakener neither loses nor invents a wake-up.** The same holds for a pipe of any
capacity, whose writes and reads may also be interrupted. -/
theorem pipe_wake_ups {buffer : Buffer capacity}
    {labels : List (Label Caller Transferred ErrorKind)} {s : State Caller (Buffer capacity) Point}
    (run : Run (Step (Buffer.device Awakener.bufLen capacity) Awakener.program)
      ⟨buffer, false, fun _ => none⟩ labels s) :
    (s.Quiet → (∃ label ∈ since Label.reports labels, label.ReturnedOk) →
      ∀ reported t, Step (Buffer.device Awakener.bufLen capacity) Awakener.program s
        (.poll reported : Label Caller Transferred ErrorKind) t → reported = true)
    ∧ ∀ before after, labels = before ++ .poll true :: after →
      ∃ label ∈ since Label.reports before,
        label.Wrote (Buffer.device Awakener.bufLen capacity) := by
  constructor
  · intro hquiet hreturned reported t step
    exact poll_reports lawful run hquiet hreturned step
  · rintro before after rfl
    exact wrote_of_report lawful run

/-- A call that finds a pipe of one byte full empties it, is interrupted on its way, and wakes
again. -/
theorem pipe_wake_ups_when_full :
    ∃ s : State Unit (Buffer 1) Point,
      Run (Step (Buffer.device Awakener.bufLen 1) Awakener.program)
        ⟨⟨1, le_rfl⟩, false, fun _ => none⟩
        [.call (), .io () .write (.error .wouldBlock) none, .io () .read (.ok 1) none,
          .io () .read (.error .interrupted) none, .io () .write (.ok 1) (some (.ok ()))] s
        ∧ s.Quiet ∧ ∀ reported t, Step (Buffer.device Awakener.bufLen 1) Awakener.program s
          (.poll reported : Label Unit Transferred ErrorKind) t → reported = true := by
  let state (fill : Fin 2) (marked : Bool) (call : Option Point) :
      State Unit (Buffer 1) Point := ⟨⟨fill, Nat.le_of_lt_succ fill.isLt⟩, marked, fun _ => call⟩
  have hcall : Step (Buffer.device Awakener.bufLen 1) Awakener.program (state 1 false none)
      (.call () : Label Unit Transferred ErrorKind) (state 1 false (some .wake)) :=
    .call _ () rfl
  have hwake : Step (Buffer.device Awakener.bufLen 1) Awakener.program
      (state 1 false (some .wake)) (.io () .write (.error .wouldBlock) none)
      (state 1 false (some .empty)) :=
    .io _ () Point.wake _ _ rfl (Or.inl rfl)
  have hread : Step (Buffer.device Awakener.bufLen 1) Awakener.program
      (state 1 false (some .empty)) (.io () .read (.ok 1) none) (state 0 false (some .empty)) :=
    .io _ () Point.empty _ _ rfl (Or.inl rfl)
  have hinterrupted : Step (Buffer.device Awakener.bufLen 1) Awakener.program
      (state 0 false (some .empty)) (.io () .read (.error .interrupted) none)
      (state 0 false (some .wake)) :=
    .io _ () Point.empty _ _ rfl (Or.inr ⟨rfl, rfl⟩)
  have hagain : Step (Buffer.device Awakener.bufLen 1) Awakener.program
      (state 0 false (some .wake)) (.io () .write (.ok 1) (some (.ok ()))) (state 1 true none) :=
    .io _ () Point.wake _ _ rfl (Or.inl rfl)
  have hrun := ((((Run.nil.snoc hcall).snoc hwake).snoc hread).snoc hinterrupted).snoc hagain
  exact ⟨_, hrun, fun _ => rfl, (pipe_wake_ups hrun).1 (fun _ => rfl)
    ⟨_, List.mem_of_getElem? (i := 4) rfl, rfl⟩⟩

end Pipe

end Gaea.Sys
