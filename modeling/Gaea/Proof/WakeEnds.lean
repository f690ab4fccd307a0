import Gaea.Library.Alone
import Gaea.Proof.WakeUps
import Mathlib.Data.Finset.Card

/-!
# A wake-up comes to an end

A call of `wake` that finds the file full makes room and calls itself again. With nobody else at the
file, the second write succeeds, unless it is interrupted, and only finitely many operations are.
-/

namespace Gaea.Sys

open Notifier

/-! ## The eventfd awakener -/

namespace Eventfd

def Counter.perform (_k : Nat) (op : Op) (counter : Counter) : Transferred × Counter :=
  match op with
  | .write => counter.write
  | .read => counter.read

theorem device_perform (k : Nat) (op : Op) (counter : Counter) :
    Counter.device.perform op counter (counter.perform k op).1 (counter.perform k op).2 := by
  cases op <;> rfl

/-! ### One operation -/

theorem next_wake (counter : Counter) :
    Awakener.program.next .wake counter.write.1
      = if counter.count < maxCounter then .returned (.ok ()) else .running .reset := by
  unfold Counter.write
  split_ifs <;> rfl

theorem write_of_full {counter : Counter} (hfull : ¬ counter.count < maxCounter) :
    counter.write.2 = counter := by
  rw [Counter.write, dif_neg hfull]

theorem next_reset (counter : Counter) :
    Awakener.program.next .reset counter.read.1 = .running .wake ∧ counter.read.2.count = 0 := by
  unfold Counter.read
  split_ifs with hzero
  · exact ⟨rfl, hzero⟩
  · exact ⟨rfl, rfl⟩

/-- What a call still owes falls with an operation, if it does so with the write that succeeds, the
one that does not, and the read that sets the counter to zero. -/
theorem owed_le (k : Nat) (cost : Op → Nat) {potential : Point → Counter → Nat}
    (hwrites : ∀ counter : Counter, counter.count < maxCounter →
      cost .write ≤ potential .wake counter)
    (hblocks : ∀ counter : Counter, ¬ counter.count < maxCounter →
      potential .reset counter + cost .write ≤ potential .wake counter)
    (hresets : ∀ before after : Counter, after.count = 0 →
      potential .wake after + cost .read ≤ potential .reset before)
    (point : Point) (before : Counter) :
    (Awakener.program.next point (before.perform k (Awakener.program.op point)).1).owed
        (fun point' => potential point' (before.perform k (Awakener.program.op point)).2)
      + cost (Awakener.program.op point) ≤ potential point before := by
  cases point with
  | wake =>
      change (Awakener.program.next .wake before.write.1).owed
        (fun point' => potential point' before.write.2) + cost .write ≤ _
      rw [next_wake]
      split_ifs with hroom
      · rw [Outcome.owed, Nat.zero_add]
        exact hwrites before hroom
      · rw [Outcome.owed, write_of_full hroom]
        exact hblocks before hroom
  | reset =>
      obtain ⟨hnext, hzero⟩ := next_reset before
      change (Awakener.program.next .reset before.read.1).owed
        (fun point' => potential point' before.read.2) + cost .read ≤ _
      rw [hnext, Outcome.owed]
      exact hresets before before.read.2 hzero

/-- The writes that a call makes from one of its points on. -/
def writesLeft : Point → Counter → Nat
  | .wake, counter => if counter.count < maxCounter then 1 else 2
  | .reset, _ => 1

def readsLeft : Point → Counter → Nat
  | .wake, counter => if counter.count < maxCounter then 0 else 1
  | .reset, _ => 1

theorem pays_writes : Pays Awakener.program Counter.perform (· == .write) fun _ => writesLeft := by
  intro k
  apply owed_le k fun op => if op == .write then 1 else 0
  · intro counter hroom
    rw [writesLeft, if_pos hroom]
    exact le_rfl
  · intro counter hfull
    rw [writesLeft, writesLeft, if_neg hfull]
    exact le_rfl
  · intro before after hzero
    rw [writesLeft, writesLeft, hzero]
    decide

theorem pays_reads : Pays Awakener.program Counter.perform (· == .read) fun _ => readsLeft := by
  intro k
  apply owed_le k fun op => if op == .read then 1 else 0
  · intro counter hroom
    exact Nat.zero_le _
  · intro counter hfull
    rw [readsLeft, readsLeft, if_neg hfull]
    exact le_rfl
  · intro before after hzero
    rw [readsLeft, readsLeft, hzero]
    decide

theorem writesLeft_le (point : Point) (counter : Counter) : writesLeft point counter ≤ 2 := by
  unfold writesLeft
  split
  · split_ifs <;> decide
  · decide

theorem readsLeft_le (point : Point) (counter : Counter) : readsLeft point counter ≤ 1 := by
  unfold readsLeft
  split
  · split_ifs <;> decide
  · decide

theorem returns_ok (k : Nat) (point : Point) (before : Counter) (result : Except ErrorKind Unit)
    (hnext : Awakener.program.next point (before.perform k (Awakener.program.op point)).1
      = .returned result) : result = .ok () := by
  cases point with
  | wake =>
      change Awakener.program.next .wake before.write.1 = _ at hnext
      rw [next_wake] at hnext
      split_ifs at hnext
      exact (Outcome.returned.inj hnext).symm
  | reset =>
      change Awakener.program.next .reset before.read.1 = _ at hnext
      rw [(next_reset before).1] at hnext
      cases hnext

end Eventfd

/-! ## The pipe awakener -/

namespace Pipe

variable {capacity : Nat} (interrupted : Finset Nat)

/-- The answer to the `k`th operation, which may be interrupted. -/
def Buffer.perform (k : Nat) (op : Op) (buffer : Buffer capacity) : Transferred × Buffer capacity :=
  if k ∈ interrupted then (.error .interrupted, buffer)
  else
    match op with
    | .write => buffer.write
    | .read => buffer.read Awakener.bufLen

theorem device_perform (k : Nat) (op : Op) (buffer : Buffer capacity) :
    (Buffer.device Awakener.bufLen capacity).perform op buffer
      (buffer.perform interrupted k op).1 (buffer.perform interrupted k op).2 := by
  unfold Buffer.perform
  by_cases hk : k ∈ interrupted
  · rw [if_pos hk]
    cases op <;> exact .inr ⟨rfl, rfl⟩
  · rw [if_neg hk]
    cases op <;> exact .inl rfl

/-! ### One operation -/

theorem next_interrupted (point : Point) :
    Awakener.program.next point (.error .interrupted) = .running .wake := by
  cases point <;> rfl

theorem next_wake (buffer : Buffer capacity) :
    Awakener.program.next .wake buffer.write.1
      = if buffer.fill < capacity then .returned (.ok ()) else .running .empty := by
  unfold Buffer.write
  split_ifs <;> rfl

theorem write_of_full {buffer : Buffer capacity} (hfull : ¬ buffer.fill < capacity) :
    buffer.write.2 = buffer := by
  rw [Buffer.write, dif_neg hfull]

theorem next_empty (buffer : Buffer capacity) :
    Awakener.program.next .empty (buffer.read Awakener.bufLen).1
      = .running (if buffer.fill = 0 then .wake else .empty) := by
  unfold Buffer.read
  split_ifs with hzero
  · rfl
  · have hsome : min buffer.fill Awakener.bufLen > 0 := by
      unfold Awakener.bufLen
      omega
    exact if_pos hsome

theorem fill_read (buffer : Buffer capacity) :
    (buffer.read Awakener.bufLen).2.fill = buffer.fill - min buffer.fill Awakener.bufLen := by
  unfold Buffer.read
  split_ifs with hzero
  · rw [hzero]
    omega
  · rfl

variable {interrupted}

theorem perform_of_mem {k : Nat} (hk : k ∈ interrupted) (op : Op) (buffer : Buffer capacity) :
    buffer.perform interrupted k op = (.error .interrupted, buffer) :=
  if_pos hk

theorem perform_of_notMem {k : Nat} (hk : k ∉ interrupted) (op : Op)
    (buffer : Buffer capacity) :
    buffer.perform interrupted k op
      = match op with
        | .write => buffer.write
        | .read => buffer.read Awakener.bufLen :=
  if_neg hk

theorem returns_ok (k : Nat) (point : Point) (before : Buffer capacity)
    (result : Except ErrorKind Unit)
    (hnext : Awakener.program.next point
        (before.perform interrupted k (Awakener.program.op point)).1 = .returned result) :
    result = .ok () := by
  by_cases hk : k ∈ interrupted
  · rw [perform_of_mem hk, next_interrupted] at hnext
    cases hnext
  · rw [perform_of_notMem hk] at hnext
    cases point with
    | wake =>
        change Awakener.program.next .wake before.write.1 = _ at hnext
        rw [next_wake] at hnext
        split_ifs at hnext
        exact (Outcome.returned.inj hnext).symm
    | empty =>
        change Awakener.program.next .empty (before.read Awakener.bufLen).1 = _ at hnext
        rw [next_empty] at hnext
        cases hnext

/-- What a call still owes falls with an operation that is not interrupted, if it does so with the
write that succeeds, the one that does not, the last read and the others. -/
theorem owed_le {k : Nat} (hk : k ∉ interrupted) (cost : Op → Nat)
    {potential : Point → Buffer capacity → Nat}
    (hwrites : ∀ buffer : Buffer capacity, buffer.fill < capacity →
      cost .write ≤ potential .wake buffer)
    (hblocks : ∀ buffer : Buffer capacity, ¬ buffer.fill < capacity →
      potential .empty buffer + cost .write ≤ potential .wake buffer)
    (hlast : ∀ before after : Buffer capacity, before.fill = 0 → after.fill = 0 →
      potential .wake after + cost .read ≤ potential .empty before)
    (hreads : ∀ before after : Buffer capacity, before.fill ≠ 0 →
      after.fill = before.fill - min before.fill Awakener.bufLen →
      potential .empty after + cost .read ≤ potential .empty before)
    (point : Point) (before : Buffer capacity) :
    (Awakener.program.next point (before.perform interrupted k (Awakener.program.op point)).1).owed
        (fun point' => potential point'
          (before.perform interrupted k (Awakener.program.op point)).2)
      + cost (Awakener.program.op point) ≤ potential point before := by
  rw [perform_of_notMem hk]
  cases point with
  | wake =>
      change (Awakener.program.next .wake before.write.1).owed
        (fun point' => potential point' before.write.2) + cost .write ≤ _
      rw [next_wake]
      split_ifs with hroom
      · rw [Outcome.owed, Nat.zero_add]
        exact hwrites before hroom
      · rw [Outcome.owed, write_of_full hroom]
        exact hblocks before hroom
  | empty =>
      have hfill := fill_read before
      change (Awakener.program.next .empty (before.read Awakener.bufLen).1).owed
        (fun point' => potential point' (before.read Awakener.bufLen).2) + cost .read ≤ _
      rw [next_empty, Outcome.owed]
      split_ifs with hzero
      · apply hlast before _ hzero
        rw [hfill, hzero, Nat.zero_sub]
      · exact hreads before _ hzero hfill

/-! ### Without interruptions -/

/-- The reads that it takes to get at all bytes, and to find out that there are no more. -/
def readsOf (fill : Nat) : Nat := (fill + (Awakener.bufLen - 1)) / Awakener.bufLen + 1

def writesLeft : Point → Buffer capacity → Nat
  | .wake, buffer => if buffer.fill < capacity then 1 else 2
  | .empty, _ => 1

def readsLeft : Point → Buffer capacity → Nat
  | .wake, buffer => if buffer.fill < capacity then 0 else readsOf buffer.fill
  | .empty, buffer => readsOf buffer.fill

theorem pays_writes (hcapacity : 0 < capacity) :
    Pays Awakener.program (Buffer.perform ∅) (· == .write)
      fun _ => (writesLeft : Point → Buffer capacity → Nat) := by
  intro k
  apply owed_le (Finset.notMem_empty k) fun op => if op == .write then 1 else 0
  · intro buffer hroom
    rw [writesLeft, if_pos hroom]
    exact le_rfl
  · intro buffer hfull
    rw [writesLeft, writesLeft, if_neg hfull]
    exact le_rfl
  · intro before after _ hzero
    rw [writesLeft, writesLeft, hzero, if_pos hcapacity]
    exact le_rfl
  · intro before after _ _
    exact le_rfl

theorem pays_reads (hcapacity : 0 < capacity) :
    Pays Awakener.program (Buffer.perform ∅) (· == .read)
      fun _ => (readsLeft : Point → Buffer capacity → Nat) := by
  intro k
  apply owed_le (Finset.notMem_empty k) fun op => if op == .read then 1 else 0
  · intro buffer hroom
    exact Nat.zero_le _
  · intro buffer hfull
    rw [readsLeft, readsLeft, if_neg hfull]
    exact le_rfl
  · intro before after hempty hzero
    rw [readsLeft, readsLeft, hzero, hempty, if_pos hcapacity]
    decide
  · intro before after hsome hfill
    rw [readsLeft, readsLeft, hfill]
    unfold readsOf Awakener.bufLen
    simp only [beq_self_eq_true, if_true]
    omega

theorem writesLeft_le (point : Point) (buffer : Buffer capacity) : writesLeft point buffer ≤ 2 := by
  unfold writesLeft
  split
  · split_ifs <;> decide
  · decide

theorem readsLeft_le (point : Point) (buffer : Buffer capacity) :
    readsLeft point buffer ≤ readsOf capacity := by
  have hreads : readsOf buffer.fill ≤ readsOf capacity := by
    have hfill := buffer.fill_le
    unfold readsOf Awakener.bufLen
    omega
  unfold readsLeft
  split
  · split_ifs
    · exact Nat.zero_le _
    · exact hreads
  · exact hreads

/-! ### With interruptions -/

/-- The interruptions that are still to come. -/
def remaining (interrupted : Finset Nat) (k : Nat) : Nat := (interrupted.filter (k ≤ ·)).card

theorem remaining_of_mem {k : Nat} (hk : k ∈ interrupted) :
    remaining interrupted k = remaining interrupted (k + 1) + 1 := by
  have hinsert : interrupted.filter (k ≤ ·) = insert k (interrupted.filter (k + 1 ≤ ·)) := by
    ext n
    simp only [Finset.mem_filter, Finset.mem_insert]
    constructor
    · rintro ⟨hn, hle⟩
      by_cases heq : n = k
      · exact .inl heq
      · exact .inr ⟨hn, by omega⟩
    · rintro (rfl | ⟨hn, hle⟩)
      · exact ⟨hk, le_rfl⟩
      · exact ⟨hn, by omega⟩
  rw [remaining, hinsert, Finset.card_insert_of_notMem (by simp), remaining]

theorem remaining_succ_le (interrupted : Finset Nat) (k : Nat) :
    remaining interrupted (k + 1) ≤ remaining interrupted k := by
  apply Finset.card_le_card
  intro n hn
  rw [Finset.mem_filter] at hn ⊢
  exact ⟨hn.1, Nat.le_of_succ_le hn.2⟩

/-- The operations that a call still makes, if it is not interrupted. -/
def rank : Point → Buffer capacity → Nat
  | .wake, buffer => if buffer.fill < capacity then 1 else buffer.fill + 3
  | .empty, buffer => buffer.fill + 2

theorem rank_le (point : Point) (buffer : Buffer capacity) : rank point buffer ≤ capacity + 3 := by
  have hfill := buffer.fill_le
  cases point with
  | wake =>
      rw [rank]
      split_ifs <;> omega
  | empty =>
      rw [rank]
      omega

theorem rank_decreases (hcapacity : 0 < capacity) {k : Nat} (hk : k ∉ interrupted) (point : Point)
    (before : Buffer capacity) :
    (Awakener.program.next point (before.perform interrupted k (Awakener.program.op point)).1).owed
        (fun point' => rank point' (before.perform interrupted k (Awakener.program.op point)).2) + 1
      ≤ rank point before := by
  apply owed_le hk fun _ => 1
  · intro buffer hroom
    rw [rank, if_pos hroom]
  · intro buffer hfull
    rw [rank, rank, if_neg hfull]
  · intro before after hempty hzero
    rw [rank, rank, hzero, hempty, if_pos hcapacity]
  · intro before after hsome hfill
    rw [rank, rank, hfill]
    unfold Awakener.bufLen
    omega

/-- Every interruption may make a call start over. -/
def callsLeft (interrupted : Finset Nat) (k : Nat) (point : Point) (buffer : Buffer capacity) :
    Nat :=
  remaining interrupted k * (capacity + 4) + rank point buffer

theorem pays_calls (hcapacity : 0 < capacity) (interrupted : Finset Nat) :
    Pays Awakener.program (Buffer.perform interrupted) (fun _ => true)
      (callsLeft interrupted : Nat → Point → Buffer capacity → Nat) := by
  intro k point before
  rw [if_pos rfl]
  by_cases hk : k ∈ interrupted
  · -- the call goes back to its first write, which the interruption that is over pays for
    rw [perform_of_mem hk, next_interrupted, Outcome.owed]
    change callsLeft interrupted (k + 1) .wake before + 1 ≤ callsLeft interrupted k point before
    have hrank := rank_le .wake before
    rw [callsLeft, callsLeft, remaining_of_mem hk, Nat.succ_mul]
    omega
  · have hstep := rank_decreases hcapacity hk point before
    have hremaining := Nat.mul_le_mul_right (capacity + 4) (remaining_succ_le interrupted k)
    unfold callsLeft
    cases hnext : Awakener.program.next point
        (before.perform interrupted k (Awakener.program.op point)).1 with
    | returned result =>
        rw [hnext, Outcome.owed] at hstep
        rw [Outcome.owed]
        omega
    | running point' =>
        rw [hnext, Outcome.owed] at hstep
        rw [Outcome.owed]
        omega

end Pipe

/-- **A wake-up ends.** Left alone, a call of `wake` returns `Ok` and leaves its file readable,
whatever the file holds. On an eventfd that takes two writes and one read at most. On a pipe any
finite set of its operations may be interrupted, and without interruptions two writes are enough,
and one read more than it takes to get at all bytes of a full pipe. -/
theorem wake_ends {capacity : Nat} (hcapacity : 0 < capacity) :
    (∀ counter : Eventfd.Counter, ∃ fuel finished,
      Eventfd.Awakener.program.alone Eventfd.Counter.perform fuel 0 .wake counter = some finished
        ∧ finished.result = .ok () ∧ finished.device.count ≠ 0
        ∧ finished.ops.count .write ≤ 2 ∧ finished.ops.count .read ≤ 1)
    ∧ ∀ (buffer : Pipe.Buffer capacity) (interrupted : Finset Nat), ∃ fuel finished,
      Pipe.Awakener.program.alone (Pipe.Buffer.perform interrupted) fuel 0 .wake buffer
          = some finished
        ∧ finished.result = .ok () ∧ finished.device.fill ≠ 0
        ∧ (interrupted = ∅ → finished.ops.count .write ≤ 2
          ∧ finished.ops.count .read ≤ (capacity + 4095) / 4096 + 1) := by
  constructor
  · intro counter
    obtain ⟨finished, halone⟩ := exists_finished (Eventfd.pays_writes.add Eventfd.pays_reads)
      (le_refl (_ : Nat))
    have hreadable := readable_of_alone Eventfd.lawful Eventfd.device_perform halone
    have hwrites := countP_le Eventfd.pays_writes halone
    have hreads := countP_le Eventfd.pays_reads halone
    refine ⟨_, finished, halone, result_eq_ok Eventfd.returns_ok halone, ?_, ?_, ?_⟩
    · simpa [Eventfd.Counter.device] using hreadable
    · exact hwrites.trans (Eventfd.writesLeft_le .wake counter)
    · exact hreads.trans (Eventfd.readsLeft_le .wake counter)
  · intro buffer interrupted
    obtain ⟨finished, halone⟩ := exists_finished (Pipe.pays_calls hcapacity interrupted)
      (le_refl (_ : Nat))
    have hreadable := readable_of_alone Pipe.lawful (Pipe.device_perform interrupted) halone
    refine ⟨_, finished, halone, result_eq_ok Pipe.returns_ok halone, ?_, ?_⟩
    · simpa [Pipe.Buffer.device] using hreadable
    · rintro rfl
      have hwrites := countP_le (Pipe.pays_writes hcapacity) halone
      have hreads := countP_le (Pipe.pays_reads hcapacity) halone
      exact ⟨hwrites.trans (Pipe.writesLeft_le .wake buffer),
        hreads.trans (Pipe.readsLeft_le .wake buffer)⟩

/-- A pipe of one page that is full, where the first write and a read are interrupted. -/
theorem wake_ends_full_pipe :
    ∃ fuel finished, Pipe.Awakener.program.alone (Pipe.Buffer.perform {0, 2}) fuel 0 .wake
        (⟨4096, le_rfl⟩ : Pipe.Buffer 4096) = some finished
      ∧ finished.result = .ok () ∧ finished.device.fill ≠ 0 := by
  obtain ⟨fuel, finished, halone, hok, hreadable, -⟩ :=
    (wake_ends (by decide : 0 < 4096)).2 ⟨4096, le_rfl⟩ {0, 2}
  exact ⟨fuel, finished, halone, hok, hreadable⟩

end Gaea.Sys
