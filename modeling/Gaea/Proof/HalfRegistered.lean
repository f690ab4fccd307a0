import Gaea.Proof.KqueueReceipts

/-!
# Registrations that fail

A registration of a handle is up to two changes, and each of them succeeds or fails alone. A
registration that fails as a whole may have made one of them.
-/

namespace Gaea.Sys.Kqueue

namespace ChangeQueue

variable {queue : ChangeQueue} {changes : List Kevent} {first : Kevent}

theorem knotes_change (hchange : first.IsChange) :
    (queue.change first).knotes
      = if queue.outcome first = 0 then
          Function.update queue.knotes first.key (first.entry (queue.knotes first.key))
        else queue.knotes := by
  unfold change Kevent.entry
  by_cases houtcome : queue.outcome first = 0
  · by_cases hadd : containsFlag first.flags evAdd = true
    · simp [houtcome, hadd]
    · simp [houtcome, hadd, hchange.kind.resolve_left hadd]
  · simp [houtcome]

theorem outcome_change (queue : ChangeQueue) (first : Kevent) :
    (queue.change first).outcome = queue.outcome := by
  unfold change
  split_ifs <;> rfl

theorem knotes_change_of_ne {key : Key} (hchange : first.IsChange) (hkey : first.key ≠ key) :
    (queue.change first).knotes key = queue.knotes key := by
  rw [knotes_change hchange]
  split_ifs
  · exact Function.update_of_ne hkey.symm _ _
  · rfl

theorem knotes_makeChanges_of_ne {key : Key} (hchanges : ∀ change ∈ changes, change.IsChange)
    (hkey : ∀ change ∈ changes, change.key ≠ key) :
    (queue.makeChanges changes).knotes key = queue.knotes key := by
  induction changes generalizing queue with
  | nil => rfl
  | cons first changes ih =>
      rw [List.forall_mem_cons] at hchanges hkey
      rw [makeChanges, List.foldl_cons, ← makeChanges, ih hchanges.2 hkey.2,
        knotes_change_of_ne hchanges.1 hkey.1]

theorem knotes_makeChanges_of_mem (hchanges : ∀ change ∈ changes, change.IsChange)
    (hkeys : changes.Pairwise fun first second => first.key ≠ second.key) {change : Kevent}
    (hmem : change ∈ changes) :
    (queue.makeChanges changes).knotes change.key
      = if queue.outcome change = 0 then change.entry (queue.knotes change.key)
        else queue.knotes change.key := by
  induction changes generalizing queue with
  | nil => cases hmem
  | cons first changes ih =>
      obtain ⟨hfirst, hrest⟩ := List.forall_mem_cons.mp hchanges
      obtain ⟨hne, hpairs⟩ := List.pairwise_cons.mp hkeys
      rw [makeChanges, List.foldl_cons, ← makeChanges]
      rcases List.mem_cons.mp hmem with rfl | hmem
      -- the changes after it are to other filters
      · rw [knotes_makeChanges_of_ne hrest fun other hother => (hne other hother).symm,
          knotes_change hfirst]
        split_ifs
        · exact Function.update_self _ _ _
        · rfl
      · rw [ih hrest hpairs hmem, outcome_change, knotes_change_of_ne hfirst (hne change hmem)]

/-- Changes to different filters leave all filters as they were exactly when each of them fails, or
asks for the entry that is already there. -/
theorem knotes_makeChanges_eq_iff (hchanges : ∀ change ∈ changes, change.IsChange)
    (hkeys : changes.Pairwise fun first second => first.key ≠ second.key) :
    (queue.makeChanges changes).knotes = queue.knotes
      ↔ ∀ change ∈ changes, queue.outcome change ≠ 0
        ∨ queue.knotes change.key = change.entry (queue.knotes change.key) := by
  constructor
  · intro hsame change hmem
    by_cases houtcome : queue.outcome change = 0
    · have hkey : (queue.makeChanges changes).knotes change.key = _ :=
        knotes_makeChanges_of_mem hchanges hkeys hmem
      rw [hsame, if_pos houtcome] at hkey
      exact .inr hkey
    · exact .inl houtcome
  · intro hchange
    funext key
    by_cases hkey : ∃ change ∈ changes, change.key = key
    · obtain ⟨change, hmem, rfl⟩ := hkey
      rw [knotes_makeChanges_of_mem hchanges hkeys hmem]
      split_ifs with houtcome
      · exact ((hchange change hmem).resolve_left fun hfailed => hfailed houtcome).symm
      · rfl
    · exact knotes_makeChanges_of_ne hchanges fun change hmem heq => hkey ⟨change, hmem, heq⟩

end ChangeQueue

/-! ## Requests -/

/-- A request that fails leaves all filters as they were. -/
def FailsWhole (selector : Selector) (request : Request) (queue : ChangeQueue) : Prop :=
  (selector.request request queue).1 ≠ .ok () →
    (selector.request request queue).2.knotes = queue.knotes

variable {queue : ChangeQueue} {request : Request}

theorem request_of_callError (hcall : queue.callError.isSome = true) (selector : Selector) :
    FailsWhole selector request queue := by
  obtain ⟨errno, hcall⟩ := Option.isSome_iff_exists.mp hcall
  rw [FailsWhole, request_eq, ChangeQueue.keventRegister_of_callError hcall]
  by_cases hinterrupted : errno = eintr
  · simp [hinterrupted]
  · simp [hinterrupted]

theorem request_of_receipts (hcall : queue.callError = none) (selector : Selector)
    (request : Request) :
    ((selector.request request queue).1 = .ok () ↔ ∀ filter ∈ filtersOf request,
        queue.outcome (changeOf request filter) = 0
          ∨ queue.outcome (changeOf request filter) ∈ ignoredOf request)
      ∧ ((selector.request request queue).2.knotes = queue.knotes ↔ ∀ filter ∈ filtersOf request,
        queue.outcome (changeOf request filter) ≠ 0
          ∨ queue.knotes (identOf (fdOf request), filter) = asked request filter) := by
  let call := ChangeCall.handle request
  have hlen : call.changes.length < 2 ^ 31 := call.length_changes_le.trans_lt (by decide)
  obtain ⟨hexamined, hregister⟩ := ChangeQueue.keventRegister_of_receipts hcall
    call.containsFlag_evReceipt hlen selector.kq call.ignoredErrors
  have hrequest : selector.request request queue = _ := call.perform_eq selector queue
  rw [hrequest, hregister, hexamined]
  constructor
  · rw [checkErrors_eq_ok_iff]
    exact List.forall_mem_map
  · have hsame : (queue.makeChanges ((filtersOf request).map (changeOf request))).knotes
        = queue.knotes ↔ _ :=
      ChangeQueue.knotes_makeChanges_eq_iff (fun _ => isChange_of_mem) (pairwise_key_ne request)
    rw [List.forall_mem_map] at hsame
    refine hsame.trans (forall₂_congr fun filter hmem => ?_)
    rw [key_changeOf, entry_changeOf request (ne_user_of_mem hmem)]

/-- **When a failed registration changes nothing.** Where the call fails as a whole, where it does
not fail, and where each of its changes fails or asks for what is already there. -/
theorem failsWhole_iff (selector : Selector) (request : Request) (queue : ChangeQueue) :
    FailsWhole selector request queue
      ↔ queue.callError.isSome = true
        ∨ (∀ filter ∈ filtersOf request, queue.outcome (changeOf request filter) = 0
          ∨ queue.outcome (changeOf request filter) ∈ ignoredOf request)
        ∨ ∀ filter ∈ filtersOf request, queue.outcome (changeOf request filter) ≠ 0
          ∨ queue.knotes (identOf (fdOf request), filter) = asked request filter := by
  cases hcall : queue.callError with
  | some errno =>
      exact iff_of_true (request_of_callError (by rw [hcall]; rfl) selector) (.inl rfl)
  | none =>
      obtain ⟨hok, hsame⟩ := request_of_receipts hcall selector request
      rw [FailsWhole, hsame, ne_eq, hok, Option.isSome_none, or_iff_right Bool.false_ne_true,
        ← imp_iff_not_or.trans (or_congr_left not_not)]

/-- The write filter is added, and the read filter is refused for lack of memory. -/
theorem half_registered :
    let both : Registration := ⟨⟨7⟩, Interests.both, RegisterOption.edge⟩
    let queue : ChangeQueue :=
      ⟨fun _ => none, [], false, fun change => if change.filter = .read then 12 else 0, none⟩
    let answer := Selector.request ⟨0⟩ (.register 3 both) queue
    answer.1 = .error ⟨12⟩ ∧ queue.knotes (3, .write) = none
      ∧ answer.2.knotes (3, .write) = some (knoteOf both) := by
  decide

end Gaea.Sys.Kqueue
