import Gaea.Library.Run
import Mathlib.Data.Set.Insert

/-!
# Mailboxes that keep one letter of a kind

Letters are posted to a mailbox and taken out of it again, one at a time and in any order. A letter
that is posted while another of its kind is still there is not kept twice. A letter is owed from
when it is posted until it is taken, and the mailbox holds exactly what it owes.
-/

namespace Mailbox

open Transition

universe u

inductive Label (α : Type u) where
  | post (letter : α)
  | take (letter : α)
  /-- The mailbox was found empty. -/
  | nothing
  | look (found : Bool)
  | other

variable {α : Type u}

inductive Step : Set α → Label α → Set α → Prop where
  | post (s : Set α) (letter : α) : Step s (.post letter) (insert letter s)
  | take (s : Set α) (letter : α) (hmem : letter ∈ s) : Step s (.take letter) (s \ {letter})
  | nothing : Step ∅ .nothing ∅
  | look (s : Set α) (found : Bool) (hfound : found = true ↔ s.Nonempty) : Step s (.look found) s
  | other (s : Set α) : Step s .other s

variable [DecidableEq α]

def Label.takes (letter : α) : Label α → Bool
  | take taken => taken = letter
  | _ => false

/-- Posted, and not taken since. -/
def Owed (labels : List (Label α)) (letter : α) : Prop :=
  .post letter ∈ since (Label.takes letter) labels

theorem owed_snoc_of_ne_take {labels : List (Label α)} {label : Label α} {letter : α}
    (h : label.takes letter = false) :
    Owed (labels ++ [label]) letter ↔ Owed labels letter ∨ label = .post letter := by
  rw [Owed, since_snoc_of_neg labels h, List.mem_append, List.mem_singleton, Owed, eq_comm]

theorem not_owed_snoc_take (labels : List (Label α)) (letter : α) :
    ¬ Owed (labels ++ [.take letter]) letter := by
  rw [Owed, since_snoc_of_pos labels (decide_eq_true rfl)]
  exact List.not_mem_nil

theorem mem_iff_owed {labels : List (Label α)} {s : Set α} (run : Run Step ∅ labels s)
    (letter : α) : letter ∈ s ↔ Owed labels letter := by
  apply run.invariant (I := fun labels s => letter ∈ s ↔ Owed labels letter)
  · exact iff_of_false (Set.notMem_empty letter) List.not_mem_nil
  · intro labels s label t ih step
    cases step with
    | post _ posted =>
        rw [owed_snoc_of_ne_take rfl, ← ih, Set.mem_insert_iff, Label.post.injEq, or_comm, eq_comm]
    | take _ taken hmem =>
        by_cases heq : taken = letter
        · subst heq
          exact iff_of_false (fun h => h.2 rfl) (not_owed_snoc_take labels taken)
        · have htakes : (Label.take taken).takes letter = false := decide_eq_false heq
          rw [owed_snoc_of_ne_take htakes, ← ih, Set.mem_sdiff, Set.mem_singleton_iff]
          simp [Ne.symm heq]
    | nothing => rw [owed_snoc_of_ne_take rfl, ← ih, or_iff_left nofun]
    | look _ found hfound => rw [owed_snoc_of_ne_take rfl, ← ih, or_iff_left nofun]
    | other _ => rw [owed_snoc_of_ne_take rfl, ← ih, or_iff_left nofun]

/-- What is taken is owed, nothing is owed to someone who finds nothing, and a look finds something
if and only if something is owed. -/
theorem owed_of_run {before after : List (Label α)} {label : Label α} {s : Set α}
    (run : Run Step ∅ (before ++ label :: after) s) :
    (∀ letter, label = .take letter → Owed before letter)
      ∧ (label = .nothing → ∀ letter, ¬ Owed before letter)
      ∧ ∀ found, label = .look found → (found = true ↔ ∃ letter, Owed before letter) := by
  obtain ⟨t, u, run, step⟩ := run.before_step
  have howed := mem_iff_owed run
  cases step with
  | take _ taken hmem =>
      refine ⟨fun letter heq => ?_, nofun, nofun⟩
      cases heq
      exact (howed taken).mp hmem
  | nothing =>
      exact ⟨nofun, fun _ letter h => Set.notMem_empty letter ((howed letter).mpr h), nofun⟩
  | look _ found hfound =>
      refine ⟨nofun, nofun, fun found' heq => ?_⟩
      cases heq
      exact hfound.trans (exists_congr howed)
  | post => exact ⟨nofun, nofun, nofun⟩
  | other => exact ⟨nofun, nofun, nofun⟩

end Mailbox
