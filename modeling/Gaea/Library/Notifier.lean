import Gaea.Library.Run
import Mathlib.Logic.Function.Basic

/-!
# Edge-triggered notification

Callers wake a poller through a device they share, such as a counter or a pipe. A call is a sequence
of writes and reads of the device, and the calls of different callers interleave at every one of
them. A write that succeeds leaves a mark, which the next poll takes. The poll reports if it takes a
mark and finds the device readable.

A call may undo the writes of others, so the device says little while calls are in progress. All
that is needed is that a call does not return before a write of its own has succeeded.
-/

namespace Notifier

open Transition

inductive Op where
  | write
  | read
deriving DecidableEq

/-- What a call does after an operation: it goes on at another point of its code, or it returns. -/
inductive Outcome (Point Error : Type) where
  | running (point : Point)
  | returned (result : Except Error Unit)

def Outcome.point {Point Error : Type} : Outcome Point Error → Option Point
  | running point => some point
  | returned _ => none

def Outcome.result {Point Error : Type} : Outcome Point Error → Option (Except Error Unit)
  | running _ => none
  | returned result => some result

/-- The code of a call, which makes one operation at each of its points. -/
structure Program (Point Answer Error : Type) where
  start : Point
  op : Point → Op
  next : Point → Answer → Outcome Point Error

/-- A device, with the answers an operation may give and the states it may leave. -/
structure Device (D Answer : Type) where
  readable : D → Bool
  perform : Op → D → Answer → D → Prop
  succeeded : Answer → Bool

structure State (Caller D Point : Type) where
  device : D
  marked : Bool
  calls : Caller → Option Point

def State.Quiet {Caller D Point : Type} (s : State Caller D Point) : Prop :=
  ∀ caller, s.calls caller = none

inductive Label (Caller Answer Error : Type) where
  | call (caller : Caller)
  | io (caller : Caller) (op : Op) (answer : Answer) (result : Option (Except Error Unit))
  | poll (reported : Bool)
  | pollWithoutRoom

namespace Label

variable {Caller D Answer Error : Type}

def reports : Label Caller Answer Error → Bool
  | poll reported => reported
  | _ => false

def Wrote (device : Device D Answer) : Label Caller Answer Error → Prop
  | io _ op answer _ => op = .write ∧ device.succeeded answer
  | _ => False

def ReturnedOk : Label Caller Answer Error → Prop
  | io _ _ _ result => result = some (.ok ())
  | _ => False

end Label

section Runs

variable {Caller D Point Answer Error : Type} [DecidableEq Caller]
  (device : Device D Answer) (program : Program Point Answer Error)

inductive Step :
    State Caller D Point → Label Caller Answer Error → State Caller D Point → Prop where
  | call (s : State Caller D Point) (caller : Caller) (hidle : s.calls caller = none) :
      Step s (.call caller)
        { s with calls := Function.update s.calls caller (some program.start) }
  | io (s : State Caller D Point) (caller : Caller) (point : Point) (answer : Answer) (after : D)
      (hpoint : s.calls caller = some point)
      (hperform : device.perform (program.op point) s.device answer after) :
      Step s (.io caller (program.op point) answer (program.next point answer).result)
        { device := after
          marked := s.marked || (program.op point == .write && device.succeeded answer)
          calls := Function.update s.calls caller (program.next point answer).point }
  | poll (s : State Caller D Point) :
      Step s (.poll (s.marked && device.readable s.device)) { s with marked := false }
  | pollWithoutRoom (s : State Caller D Point) : Step s .pollWithoutRoom s

/-- A successful write makes the device readable, and a call only returns after one. -/
structure Lawful : Prop where
  readable_of_write {before after : D} {answer : Answer} :
    device.perform .write before answer after → device.succeeded answer → device.readable after
  write_of_returned {point : Point} {before after : D} {answer : Answer}
    {result : Except Error Unit} :
    device.perform (program.op point) before answer after →
      program.next point answer = .returned result →
      program.op point = .write ∧ device.succeeded answer

/-- What a run since the last report says about the state: a mark is owed to a write, and a write
shows in the device unless a call is still in progress. -/
structure Settled (labels : List (Label Caller Answer Error)) (s : State Caller D Point) :
    Prop where
  wrote_of_marked : s.marked →
    ∃ label ∈ since Label.reports labels, label.Wrote device
  ready_of_wrote : (∃ label ∈ since Label.reports labels, label.Wrote device) → s.Quiet →
    s.marked ∧ device.readable s.device

variable {device program}

omit [DecidableEq Caller] in
theorem exists_wrote_snoc_iff {labels : List (Label Caller Answer Error)}
    {label : Label Caller Answer Error} (hreports : label.reports = false) :
    (∃ other ∈ since Label.reports (labels ++ [label]), other.Wrote device)
      ↔ (∃ other ∈ since Label.reports labels, other.Wrote device) ∨ label.Wrote device := by
  rw [since_snoc_of_neg labels hreports]
  simp only [List.mem_append, List.mem_singleton, or_and_right, exists_or, exists_eq_left]

theorem State.Quiet.point_eq_none {before : D} {marked : Bool} {calls : Caller → Option Point}
    {caller : Caller} {point : Option Point}
    (hquiet : State.Quiet ⟨before, marked, Function.update calls caller point⟩) : point = none := by
  have hcaller := hquiet caller
  dsimp only at hcaller
  rwa [Function.update_self] at hcaller

omit [DecidableEq Caller] in
theorem Settled.snoc_report {labels : List (Label Caller Answer Error)}
    {label : Label Caller Answer Error} (hreports : label.reports = true)
    (s : State Caller D Point) : Settled device (labels ++ [label]) { s with marked := false } := by
  constructor
  · intro hmarked
    cases hmarked
  · rintro ⟨other, hmem, -⟩
    rw [since_snoc_of_pos labels hreports] at hmem
    cases hmem

theorem Settled.step (hlawful : Lawful device program) {labels : List (Label Caller Answer Error)}
    {s t : State Caller D Point} {label : Label Caller Answer Error}
    (h : Settled device labels s) (step : Step device program s label t) :
    Settled device (labels ++ [label]) t := by
  obtain ⟨hmarked, hready⟩ := h
  by_cases hreports : label.reports = true
  · cases step with
    | poll => exact Settled.snoc_report hreports s
    | _ => cases hreports
  · have hsince : (∃ other ∈ since Label.reports (labels ++ [label]), other.Wrote device) ↔ _ :=
      exists_wrote_snoc_iff (eq_false_of_ne_true hreports)
    constructor
    · intro hmark
      apply hsince.mpr
      cases step with
      | io caller point answer after hpoint hperform =>
          rcases Bool.or_eq_true_iff.mp hmark with hold | hnew
          · exact Or.inl (hmarked hold)
          · exact Or.inr (by simpa [Label.Wrote] using hnew)
      | call => exact Or.inl (hmarked hmark)
      | poll => cases hmark
      | pollWithoutRoom => exact Or.inl (hmarked hmark)
    · intro hwrote hquiet
      have hwrote := hsince.mp hwrote
      cases step with
      | call => cases hquiet.point_eq_none
      | io caller point answer after hpoint hperform =>
          -- the call is over, so its last operation was a write that succeeded
          cases hnext : program.next point answer with
          | running point' =>
              rw [hnext] at hquiet
              cases hquiet.point_eq_none
          | returned result =>
              obtain ⟨hop, hsucceeded⟩ := hlawful.write_of_returned hperform hnext
              rw [hop] at hperform
              refine ⟨?_, hlawful.readable_of_write hperform hsucceeded⟩
              simp [hop, hsucceeded]
      | poll =>
          obtain ⟨hmark, hreadable⟩ := hready (hwrote.resolve_right id) hquiet
          exact absurd (by simp [Label.reports, hmark, hreadable]) hreports
      | pollWithoutRoom => exact hready (hwrote.resolve_right id) hquiet

theorem settled_of_run (hlawful : Lawful device program) {start : D}
    {labels : List (Label Caller Answer Error)} {s : State Caller D Point}
    (run : Run (Step device program) ⟨start, false, fun _ => none⟩ labels s) :
    Settled device labels s := by
  apply run.invariant (I := Settled device)
  · constructor
    · intro hmarked
      cases hmarked
    · rintro ⟨label, hmem, -⟩
      cases hmem
  · intro labels s label t hsettled step
    exact hsettled.step hlawful step

theorem wrote_of_returnedOk (hlawful : Lawful device program)
    {labels : List (Label Caller Answer Error)} {init s : State Caller D Point}
    (run : Run (Step device program) init labels s) {label : Label Caller Answer Error}
    (hmem : label ∈ labels) (hreturned : label.ReturnedOk) : label.Wrote device := by
  obtain ⟨before, after, step⟩ := run.exists_step hmem
  cases step with
  | io caller point answer after hpoint hperform =>
      cases hnext : program.next point answer with
      | running point' =>
          rw [Label.ReturnedOk, hnext] at hreturned
          cases hreturned
      | returned result => exact hlawful.write_of_returned hperform hnext
  | _ => cases hreturned

/-- **No wake-up is lost.** When no call is in progress and a call has returned `Ok` since the last
report, a poll reports. -/
theorem poll_reports (hlawful : Lawful device program) {start : D}
    {labels : List (Label Caller Answer Error)} {s : State Caller D Point}
    (run : Run (Step device program) ⟨start, false, fun _ => none⟩ labels s) (hquiet : s.Quiet)
    (hreturned : ∃ label ∈ since Label.reports labels, label.ReturnedOk) {reported : Bool}
    {t : State Caller D Point}
    (step : Step device program s (.poll reported : Label Caller Answer Error) t) :
    reported = true := by
  obtain ⟨label, hmem, hreturned⟩ := hreturned
  have hwrote := wrote_of_returnedOk hlawful run (mem_of_mem_since hmem) hreturned
  obtain ⟨hmarked, hreadable⟩ :=
    (settled_of_run hlawful run).ready_of_wrote ⟨label, hmem, hwrote⟩ hquiet
  cases step with
  | poll => rw [hmarked, hreadable, Bool.and_self]

/-- **No wake-up is invented.** Every report is preceded by a successful write made since the report
before it. -/
theorem wrote_of_report (hlawful : Lawful device program) {start : D}
    {before after : List (Label Caller Answer Error)} {s : State Caller D Point}
    (run : Run (Step device program) ⟨start, false, fun _ => none⟩
      (before ++ .poll true :: after) s) :
    ∃ label ∈ since Label.reports before, label.Wrote device := by
  obtain ⟨t, u, run, step⟩ := run.before_step
  generalize hlabel : (.poll true : Label Caller Answer Error) = label at step
  cases step with
  | poll =>
      have hreports : (t.marked && device.readable t.device) = true := (Label.poll.inj hlabel).symm
      exact (settled_of_run hlawful run).wrote_of_marked (Bool.and_eq_true_iff.mp hreports).1
  | _ => cases hlabel

end Runs

end Notifier
