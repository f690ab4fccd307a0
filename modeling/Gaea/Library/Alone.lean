import Gaea.Library.Notifier

/-!
# A call that nobody interferes with

The code of a call run on its own, against a device whose answer to the `k`th operation is given. A
call comes to an end, and after how many operations, is shown by a potential that pays for each of
them.
-/

namespace Notifier

variable {D Point Answer Error : Type}

/-- What a call leaves behind: its result, the device, and the operations it has made. -/
structure Finished (D Error : Type) where
  result : Except Error Unit
  device : D
  ops : List Op

section Alone

variable (program : Program Point Answer Error) (perform : Nat → Op → D → Answer × D)

/-- Run a call from one of its points, where `k` operations have been made before. The bound on the
operations that it may still make is only there for the recursion. -/
def Program.alone : Nat → Nat → Point → D → Option (Finished D Error)
  | 0, _, _, _ => none
  | fuel + 1, k, point, before =>
      let (answer, after) := perform k (program.op point) before
      match program.next point answer with
      | .returned result => some ⟨result, after, [program.op point]⟩
      | .running point' =>
          (alone fuel (k + 1) point' after).map fun finished =>
            { finished with ops := program.op point :: finished.ops }

def Outcome.owed (potential : Point → Nat) : Outcome Point Error → Nat
  | running point => potential point
  | returned _ => 0

/-- The potential falls with every operation of the given kind, and never rises. -/
def Pays (kind : Op → Bool) (potential : Nat → Point → D → Nat) : Prop :=
  ∀ k point before,
    (program.next point (perform k (program.op point) before).1).owed
        (fun point' => potential (k + 1) point' (perform k (program.op point) before).2)
      + (if kind (program.op point) then 1 else 0) ≤ potential k point before

variable {program perform} {fuel k : Nat} {point : Point} {before : D}
  {finished : Finished D Error}

theorem alone_of_returned {result : Except Error Unit}
    (hnext : program.next point (perform k (program.op point) before).1 = .returned result) :
    program.alone perform (fuel + 1) k point before
      = some ⟨result, (perform k (program.op point) before).2, [program.op point]⟩ := by
  simp only [Program.alone, hnext]

theorem alone_of_running {point' : Point}
    (hnext : program.next point (perform k (program.op point) before).1 = .running point') :
    program.alone perform (fuel + 1) k point before
      = (program.alone perform fuel (k + 1) point'
          (perform k (program.op point) before).2).map fun finished =>
        { finished with ops := program.op point :: finished.ops } := by
  simp only [Program.alone, hnext]

/-- A call is over with the operation after which it returns. -/
theorem alone_induction {motive : Nat → Point → D → Finished D Error → Prop}
    (returned : ∀ k point before result,
      program.next point (perform k (program.op point) before).1 = .returned result →
      motive k point before ⟨result, (perform k (program.op point) before).2, [program.op point]⟩)
    (running : ∀ k point before point' finished,
      program.next point (perform k (program.op point) before).1 = .running point' →
      motive (k + 1) point' (perform k (program.op point) before).2 finished →
      motive k point before { finished with ops := program.op point :: finished.ops })
    (halone : program.alone perform fuel k point before = some finished) :
    motive k point before finished := by
  induction fuel generalizing k point before finished with
  | zero => cases halone
  | succ fuel ih =>
      cases hnext : program.next point (perform k (program.op point) before).1 with
      | returned result =>
          rw [alone_of_returned hnext, Option.some.injEq] at halone
          rw [← halone]
          exact returned k point before result hnext
      | running point' =>
          rw [alone_of_running hnext] at halone
          obtain ⟨rest, hrest, rfl⟩ := Option.map_eq_some_iff.mp halone
          exact running k point before point' rest hnext (ih hrest)

/-! ## Potentials -/

theorem Outcome.owed_add (p q : Point → Nat) (outcome : Outcome Point Error) :
    outcome.owed (fun point => p point + q point) = outcome.owed p + outcome.owed q := by
  cases outcome <;> rfl

/-- What pays for the writes and what pays for the reads pay for all operations. -/
theorem Pays.add {p q : Nat → Point → D → Nat}
    (hwrites : Pays program perform (· == .write) p)
    (hreads : Pays program perform (· == .read) q) :
    Pays program perform (fun _ => true)
      fun k point before => p k point before + q k point before := by
  intro k point before
  have hwrites := hwrites k point before
  have hreads := hreads k point before
  rw [Outcome.owed_add, if_pos rfl]
  cases hop : program.op point with
  | write =>
      simp only [hop, beq_self_eq_true, if_true] at hwrites hreads ⊢
      omega
  | read =>
      simp only [hop, beq_self_eq_true, if_true] at hwrites hreads ⊢
      omega

variable {potential : Nat → Point → D → Nat}

theorem exists_finished (hpays : Pays program perform (fun _ => true) potential)
    (hfuel : potential k point before ≤ fuel) :
    ∃ finished, program.alone perform fuel k point before = some finished := by
  induction fuel generalizing k point before with
  | zero =>
      have hstep := hpays k point before
      rw [if_pos rfl] at hstep
      omega
  | succ fuel ih =>
      have hstep := hpays k point before
      rw [if_pos rfl] at hstep
      cases hnext : program.next point (perform k (program.op point) before).1 with
      | returned result => exact ⟨_, alone_of_returned hnext⟩
      | running point' =>
          rw [hnext, Outcome.owed] at hstep
          obtain ⟨rest, hrest⟩ : ∃ rest, program.alone perform fuel (k + 1) point'
              (perform k (program.op point) before).2 = some rest := ih (by omega)
          rw [alone_of_running hnext, hrest]
          exact ⟨_, rfl⟩

theorem countP_le {kind : Op → Bool} (hpays : Pays program perform kind potential)
    (halone : program.alone perform fuel k point before = some finished) :
    finished.ops.countP kind ≤ potential k point before := by
  refine alone_induction (motive := fun k point before finished =>
    finished.ops.countP kind ≤ potential k point before) ?_ ?_ halone
  · intro k point before result hnext
    have hstep := hpays k point before
    rw [hnext, Outcome.owed, Nat.zero_add] at hstep
    rwa [List.countP_singleton]
  · intro k point before point' finished hnext ih
    have hstep := hpays k point before
    rw [hnext, Outcome.owed] at hstep
    rw [List.countP_cons]
    omega

/-! ## What a call leaves behind -/

/-- A call returns `Ok` if it returns nothing else. -/
theorem result_eq_ok
    (hok : ∀ k point before result,
      program.next point (perform k (program.op point) before).1 = .returned result →
      result = .ok ())
    (halone : program.alone perform fuel k point before = some finished) :
    finished.result = .ok () :=
  alone_induction (motive := fun _ _ _ finished => finished.result = .ok ()) hok
    (fun _ _ _ _ _ _ ih => ih) halone

/-- A device that a lawful call has returned from is readable. -/
theorem readable_of_alone {device : Device D Answer} (hlawful : Lawful device program)
    (hperform : ∀ k op before, device.perform op before (perform k op before).1
      (perform k op before).2)
    (halone : program.alone perform fuel k point before = some finished) :
    device.readable finished.device := by
  refine alone_induction (motive := fun _ _ _ finished => device.readable finished.device) ?_
    (fun _ _ _ _ _ _ ih => ih) halone
  intro k point before result hnext
  have hlast := hperform k (program.op point) before
  obtain ⟨hop, hsucceeded⟩ := hlawful.write_of_returned hlast hnext
  rw [hop] at hlast hsucceeded ⊢
  exact hlawful.readable_of_write hlast hsucceeded

end Alone

end Notifier
