import Gaea.Library.Deliveries
import Gaea.Observe
import Gaea.Sys.KqueueKernel
import Mathlib.Data.Multiset.Filter

/-!
# What the requests do to a kqueue

Each request of the selector is a list of changes to different filters, every one of which asks for
a receipt. The filters are then described one at a time: a change that is not refused leaves the
entry it asks for, and the other filters stay as they are.
-/

namespace Gaea.Sys.Kqueue

/-! ## Changes -/

/-- What a change that is made leaves of a filter. -/
def Kevent.entry (change : Kevent) (knote : Option Knote) : Option Knote :=
  if containsFlag change.flags evAdd then some (change.added knote) else none

theorem Kevent.added_of_ne {change : Kevent} (hfilter : change.filter ≠ .user)
    (knote : Option Knote) : change.added knote = ⟨change.flags, change.udata⟩ := by
  unfold Kevent.added
  split
  · contradiction
  · rfl

theorem Kevent.udata_added (change : Kevent) (knote : Option Knote) :
    (change.added knote).udata = change.udata := by
  unfold Kevent.added
  split <;> rfl

/-- A change that adds or deletes, and asks for a receipt. -/
structure Kevent.IsChange (change : Kevent) : Prop where
  receipt : containsFlag change.flags evReceipt = true
  kind : containsFlag change.flags evAdd = true ∨ containsFlag change.flags evDelete = true

theorem containsFlag_or_self (flags : UInt32) {flag : UInt32} (hflag : flag ≠ 0) :
    containsFlag (flags ||| flag) flag = true := by
  have hself : (flags ||| flag) &&& flag = flag := by
    apply UInt32.toBitVec_inj.mp
    ext i hi
    simp only [UInt32.toBitVec_and, UInt32.toBitVec_or, BitVec.getElem_and, BitVec.getElem_or,
      Bool.and_eq_right_iff_imp, Bool.or_eq_true]
    exact Or.inr
  rw [containsFlag, hself]
  exact bne_iff_ne.mpr hflag

namespace KernelQueue

variable (kqueue : KernelQueue)

def errorOf (change : Kevent) : Int64 :=
  match kqueue.refuse change with
  | some errno => errno
  | none =>
      if containsFlag change.flags evAdd || (kqueue.knotes change.key).isSome then 0 else enoent

def entryAfter (change : Kevent) : Option Knote :=
  if (kqueue.refuse change).isSome then kqueue.knotes change.key
  else change.entry (kqueue.knotes change.key)

variable {kqueue} {change : Kevent}

theorem change_eq (h : change.IsChange) :
    kqueue.change change
      = (kqueue.errorOf change, kqueue.setKnote change.key (kqueue.entryAfter change)) := by
  unfold KernelQueue.change errorOf entryAfter Kevent.entry
  cases hrefuse : kqueue.refuse change with
  | some errno => simp [setKnote]
  | none =>
      by_cases hadd : containsFlag change.flags evAdd = true
      · simp [hadd]
      · have hdelete := h.kind.resolve_left hadd
        cases hknote : kqueue.knotes change.key with
        | none =>
            have hsame : Function.update kqueue.knotes change.key none = kqueue.knotes := by
              rw [← hknote, Function.update_eq_self]
            simp [setKnote, hadd, hdelete, hsame]
        | some knote => simp [hadd, hdelete]

/-- What a list of changes to different filters leaves behind. -/
structure Made (kqueue : KernelQueue) (changes : List Kevent)
    (made : List Kevent × KernelQueue) : Prop where
  receipts : made.1 = changes.map fun change => receipt change (kqueue.errorOf change)
  changed : ∀ change ∈ changes, made.2.knotes change.key = kqueue.entryAfter change
  unchanged : ∀ key, (∀ change ∈ changes, change.key ≠ key) →
    made.2.knotes key = kqueue.knotes key
  rest : made.2 = { kqueue with knotes := made.2.knotes }

theorem knotes_setKnote_of_ne {key key' : Key} (hne : key' ≠ key) (entry : Option Knote) :
    (kqueue.setKnote key entry).knotes key' = kqueue.knotes key' :=
  Function.update_of_ne hne _ _

theorem errorOf_setKnote {key : Key} (hne : change.key ≠ key) (entry : Option Knote) :
    (kqueue.setKnote key entry).errorOf change = kqueue.errorOf change := by
  simp only [errorOf, knotes_setKnote_of_ne hne]
  rfl

theorem entryAfter_setKnote {key : Key} (hne : change.key ≠ key) (entry : Option Knote) :
    (kqueue.setKnote key entry).entryAfter change = kqueue.entryAfter change := by
  simp only [entryAfter, knotes_setKnote_of_ne hne]
  rfl

theorem made_makeChanges {changes : List Kevent} (hchanges : ∀ change ∈ changes, change.IsChange)
    (hkeys : changes.Pairwise fun first second => first.key ≠ second.key) :
    Made kqueue changes (kqueue.makeChanges changes) := by
  induction changes generalizing kqueue with
  | nil => exact ⟨rfl, fun _ hmem => absurd hmem List.not_mem_nil, fun _ _ => rfl, rfl⟩
  | cons first changes ih =>
      obtain ⟨hfirst, hrest⟩ := List.pairwise_cons.mp hkeys
      have hreceipt := (hchanges first List.mem_cons_self).receipt
      have hchange : kqueue.change first = _ := change_eq (hchanges first List.mem_cons_self)
      have hmade : Made (kqueue.setKnote first.key (kqueue.entryAfter first)) _ _ :=
        ih (fun change hmem => hchanges change (List.mem_cons_of_mem _ hmem)) hrest
      have hother : ∀ change ∈ changes, change.key ≠ first.key := fun change hmem =>
        (hfirst change hmem).symm
      simp only [makeChanges, hchange, hreceipt, Bool.true_or, if_true]
      constructor
      · rw [hmade.receipts, List.map_cons]
        refine congrArg (List.cons _) (List.map_congr_left fun change hmem => ?_)
        rw [errorOf_setKnote (hother change hmem)]
      · intro change hmem
        rcases List.mem_cons.mp hmem with rfl | hmem
        · rw [hmade.unchanged change.key hother]
          exact Function.update_self _ _ _
        · rw [hmade.changed change hmem, entryAfter_setKnote (hother change hmem)]
      · intro key hkey
        rw [hmade.unchanged key fun change hmem => hkey change (List.mem_cons_of_mem _ hmem)]
        exact knotes_setKnote_of_ne (hkey first List.mem_cons_self).symm _
      · rw [hmade.rest]
        rfl

end KernelQueue

/-! ## Requests -/

def wanted (interests : Interests) : Filter → Bool
  | .read => interests.isReadable
  | .write => interests.isWritable
  | .signal | .user => false

def knoteOf (registration : Registration) : Knote :=
  ⟨optToFlags registration.opt ||| evAdd, registration.id.val⟩

theorem containsFlag_optToFlags (opt : RegisterOption) (add : Bool) :
    let flags := optToFlags opt ||| if add then evAdd else evDelete
    containsFlag flags evReceipt = true ∧ containsFlag flags evAdd = add
      ∧ containsFlag flags evDelete = !add ∧ containsFlag flags evOneshot = opt.isOneshot
      ∧ containsFlag flags evClear = opt.isEdge := by
  unfold optToFlags
  generalize opt.isEdge = edge
  generalize opt.isOneshot = oneshot
  revert edge oneshot add
  decide

theorem isOneshot_knoteOf (registration : Registration) :
    (knoteOf registration).isOneshot = registration.opt.isOneshot :=
  (containsFlag_optToFlags registration.opt true).2.2.2.1

theorem containsFlag_knoteOf_evClear (registration : Registration) :
    containsFlag (knoteOf registration).flags evClear = registration.opt.isEdge :=
  (containsFlag_optToFlags registration.opt true).2.2.2.2

def fdOf : Request → RawFd
  | .register fd _ | .reregister fd _ | .deregister fd => fd

/-- What a request asks the entry of a filter to be. -/
def asked : Request → Filter → Option Knote
  | .register _ registration, filter | .reregister _ registration, filter =>
      if wanted registration.interests filter then some (knoteOf registration) else none
  | .deregister _, _ => none

/-- The filters that a request changes. A `register` only adds. -/
def filtersOf : Request → List Filter
  | .register _ registration => [Filter.write, .read].filter (wanted registration.interests)
  | .reregister _ _ | .deregister _ => [.write, .read]

def changeOf : Request → Filter → Kevent
  | .register fd registration, filter | .reregister fd registration, filter =>
      newKevent (identOf fd) filter
        (optToFlags registration.opt
          ||| if wanted registration.interests filter then evAdd else evDelete)
        registration.id
  | .deregister fd, filter => newKevent (identOf fd) filter (evDelete ||| evReceipt) ⟨-1⟩

def ignoredOf : Request → List Int64
  | .register _ _ => []
  | .reregister _ _ | .deregister _ => [enoent]

def Selector.request {W : Type} [Kernel W] (selector : Selector) (request : Request) (world : W) :
    Except IoError Unit × W :=
  match request with
  | .register fd ⟨id, interests, opt⟩ => selector.register fd id interests opt world
  | .reregister fd ⟨id, interests, opt⟩ => selector.reregister fd id interests opt world
  | .deregister fd => selector.deregister fd world

theorem request_eq {W : Type} [Kernel W] (selector : Selector) (request : Request) (world : W) :
    selector.request request world
      = keventRegister selector.kq ((filtersOf request).map (changeOf request))
        (ignoredOf request) world := by
  cases request with
  | register fd registration =>
      have hchanges : Selector.registerChanges fd registration.id registration.interests
          registration.opt
          = ([Filter.write, .read].filter (wanted registration.interests)).map
            (changeOf (.register fd registration)) := by
        unfold Selector.registerChanges changeOf
        cases hwritable : registration.interests.isWritable <;>
          cases hreadable : registration.interests.isReadable <;>
          simp [wanted, hwritable, hreadable]
      exact congrArg (fun changes => keventRegister selector.kq changes [] world) hchanges
  | reregister fd registration =>
      have hchanges : Selector.reregisterChanges fd registration.id registration.interests
          registration.opt
          = [Filter.write, .read].map (changeOf (.reregister fd registration)) := by
        unfold Selector.reregisterChanges changeOf
        cases hwritable : registration.interests.isWritable <;>
          cases hreadable : registration.interests.isReadable <;>
          simp [wanted, hwritable, hreadable]
      exact congrArg (fun changes => keventRegister selector.kq changes [enoent] world) hchanges
  | deregister fd => rfl

theorem isChange_changeOf (request : Request) (filter : Filter) :
    (changeOf request filter).IsChange := by
  have hflags (registration : Registration) (fd : RawFd) :
      (changeOf (.reregister fd registration) filter).IsChange := by
    obtain ⟨hreceipt, hadd, hdelete, -⟩ :=
      containsFlag_optToFlags registration.opt (wanted registration.interests filter)
    refine ⟨hreceipt, ?_⟩
    by_cases hwanted : wanted registration.interests filter = true
    · exact Or.inl (hadd.trans hwanted)
    · exact Or.inr (hdelete.trans (by rw [eq_false_of_ne_true hwanted, Bool.not_false]))
  cases request with
  | register fd registration => exact hflags registration fd
  | reregister fd registration => exact hflags registration fd
  | deregister fd => exact ⟨(by decide : containsFlag (evDelete ||| evReceipt) evReceipt = true),
      Or.inr (by decide : containsFlag (evDelete ||| evReceipt) evDelete = true)⟩

theorem filter_changeOf (request : Request) (filter : Filter) :
    (changeOf request filter).filter = filter := by
  cases request <;> rfl

/-- What a request asks of a filter does not depend on what the filter was before. -/
theorem entry_changeOf (request : Request) {filter : Filter} (hfilter : filter ≠ .user)
    (knote : Option Knote) : (changeOf request filter).entry knote = asked request filter := by
  rw [← filter_changeOf request filter] at hfilter
  unfold Kevent.entry
  rw [Kevent.added_of_ne hfilter]
  have hflags (registration : Registration) (fd : RawFd) :
      (if containsFlag (changeOf (.reregister fd registration) filter).flags evAdd then
          some (⟨(changeOf (.reregister fd registration) filter).flags,
            (changeOf (.reregister fd registration) filter).udata⟩ : Knote)
        else none) = asked (.reregister fd registration) filter := by
    have hadd := (containsFlag_optToFlags registration.opt
      (wanted registration.interests filter)).2.1
    unfold changeOf asked newKevent
    dsimp only at hadd ⊢
    rw [hadd]
    by_cases hwanted : wanted registration.interests filter = true
    · rw [if_pos hwanted, if_pos hwanted, if_pos hwanted]
      rfl
    · rw [if_neg hwanted, if_neg hwanted]
  cases request with
  | register fd registration => exact hflags registration fd
  | reregister fd registration => exact hflags registration fd
  | deregister fd =>
      have hadd : containsFlag (evDelete ||| evReceipt) evAdd = false := by decide
      unfold changeOf asked newKevent
      dsimp only
      rw [hadd]
      rfl

theorem key_changeOf (request : Request) (filter : Filter) :
    (changeOf request filter).key = (identOf (fdOf request), filter) := by
  cases request <;> rfl

theorem checkErrors_eq_ok_iff (ignoredErrors : List Int64) (changes : List Kevent)
    (errorOf : Kevent → Int64) :
    checkErrors ignoredErrors (changes.map fun change =>
        KernelQueue.receipt change (errorOf change)) = .ok ()
      ↔ ∀ change ∈ changes, errorOf change = 0 ∨ errorOf change ∈ ignoredErrors := by
  induction changes with
  | nil => simp [checkErrors]
  | cons change changes ih =>
      have hflag :
          containsFlag (KernelQueue.receipt change (errorOf change)).flags evError = true :=
        containsFlag_or_self change.flags (by decide)
      rw [List.map_cons, checkErrors, hflag, List.forall_mem_cons, ← ih]
      by_cases hignored : errorOf change = 0 ∨ errorOf change ∈ ignoredErrors
      · have hskip : ((KernelQueue.receipt change (errorOf change)).data != 0
            && !ignoredErrors.contains (KernelQueue.receipt change (errorOf change)).data)
            = false := by
          rcases hignored with hzero | hmem
          · simp [KernelQueue.receipt, hzero]
          · simp [KernelQueue.receipt, hmem]
        rw [Bool.true_and, hskip]
        simp [hignored]
      · have hreport : ((KernelQueue.receipt change (errorOf change)).data != 0
            && !ignoredErrors.contains (KernelQueue.receipt change (errorOf change)).data)
            = true := by
          rw [not_or] at hignored
          simp [KernelQueue.receipt, hignored.1, hignored.2]
        rw [Bool.true_and, hreport]
        simp [hignored]

variable {kqueue : KernelQueue} {changes : List Kevent}

theorem keventRegister_of_callError {errno : Int32} (hcall : kqueue.callError = some errno)
    (kq : RawFd) (ignoredErrors : List Int64) :
    keventRegister kq changes ignoredErrors kqueue = (.error ⟨errno⟩, kqueue) := by
  have hkevent : kqueue.kevent changes changes.length = (⟨-1, [], errno⟩, kqueue) := by
    rw [KernelQueue.kevent, hcall]
  simp only [keventRegister, Kernel.kevent, hkevent, if_true]
  rw [if_neg (kqueue.callError_ne errno hcall)]

/-- A list of changes that all ask for a receipt is made as a whole, and fails with the first error
that is not to be ignored. -/
theorem keventRegister_eq (hcall : kqueue.callError = none)
    (hchanges : ∀ change ∈ changes, change.IsChange)
    (hkeys : changes.Pairwise fun first second => first.key ≠ second.key) (hne : changes ≠ [])
    (hlen : changes.length < 2 ^ 31) (kq : RawFd) (ignoredErrors : List Int64) :
    keventRegister kq changes ignoredErrors kqueue
      = (checkErrors ignoredErrors
        (changes.map fun change => KernelQueue.receipt change (kqueue.errorOf change)),
        (kqueue.makeChanges changes).2) := by
  have hreceipts : (kqueue.makeChanges changes).1 = _ :=
    (KernelQueue.made_makeChanges hchanges hkeys).receipts
  have hlength : (kqueue.makeChanges changes).1.length = changes.length := by
    rw [hreceipts, List.length_map]
  have hkevent : kqueue.kevent changes changes.length
      = (⟨Int32.ofNat changes.length, (kqueue.makeChanges changes).1, 0⟩,
        (kqueue.makeChanges changes).2) := by
    have hnonempty : (kqueue.makeChanges changes).1.isEmpty = false := by
      rw [hreceipts]
      simpa using hne
    simp only [KernelQueue.kevent, hcall, hnonempty, hlength]
    rfl
  simp only [keventRegister, Kernel.kevent, hkevent]
  rw [if_neg (ofNat_ne_neg_one hlen), hlength, List.drop_length, List.append_nil, hreceipts]

/-- What a request leaves behind when the call does not fail as a whole. -/
structure Served (kqueue : KernelQueue) (request : Request)
    (answer : Except IoError Unit × KernelQueue) : Prop where
  ok_iff : answer.1 = .ok () ↔ ∀ filter ∈ filtersOf request,
    kqueue.errorOf (changeOf request filter) = 0
      ∨ kqueue.errorOf (changeOf request filter) ∈ ignoredOf request
  changed : ∀ filter ∈ filtersOf request, answer.2.knotes (identOf (fdOf request), filter)
    = if (kqueue.refuse (changeOf request filter)).isSome then
        kqueue.knotes (identOf (fdOf request), filter)
      else asked request filter
  unchanged : ∀ key, (∀ filter ∈ filtersOf request, (identOf (fdOf request), filter) ≠ key) →
    answer.2.knotes key = kqueue.knotes key
  rest : answer.2 = { kqueue with knotes := answer.2.knotes }

theorem filtersOf_sublist (request : Request) :
    (filtersOf request).Sublist [Filter.write, .read] := by
  cases request with
  | register fd registration => exact List.filter_sublist
  | reregister fd registration => exact List.Sublist.refl _
  | deregister fd => exact List.Sublist.refl _

theorem filtersOf_ne_nil (request : Request) : filtersOf request ≠ [] := by
  cases request with
  | register fd registration =>
      intro hnil
      have hnone := List.filter_eq_nil_iff.mp hnil
      rcases registration.interests.isReadable_or_isWritable with hreadable | hwritable
      · exact hnone .read (by simp) hreadable
      · exact hnone .write (by simp) hwritable
  | reregister fd registration => exact List.cons_ne_nil _ _
  | deregister fd => exact List.cons_ne_nil _ _

theorem ne_user_of_mem {request : Request} {filter : Filter} (hmem : filter ∈ filtersOf request) :
    filter ≠ .user := by
  rintro rfl
  have hpair : Filter.user ∈ [Filter.write, .read] := (filtersOf_sublist request).subset hmem
  exact absurd hpair (by decide)

theorem isChange_of_mem {request : Request} {change : Kevent}
    (hmem : change ∈ (filtersOf request).map (changeOf request)) : change.IsChange := by
  obtain ⟨filter, -, rfl⟩ := List.mem_map.mp hmem
  exact isChange_changeOf request filter

theorem pairwise_key_ne (request : Request) :
    ((filtersOf request).map (changeOf request)).Pairwise fun first second =>
      first.key ≠ second.key := by
  rw [List.pairwise_map]
  have hfilters : (filtersOf request).Pairwise (· ≠ ·) :=
    List.Pairwise.sublist (filtersOf_sublist request) (by decide)
  apply hfilters.imp
  intro first second hne heq
  rw [key_changeOf, key_changeOf] at heq
  exact hne (Prod.mk.inj heq).2

theorem served_request (hcall : kqueue.callError = none) (selector : Selector)
    (request : Request) : Served kqueue request (selector.request request kqueue) := by
  have hchanges : ∀ change ∈ (filtersOf request).map (changeOf request), change.IsChange :=
    fun _ => isChange_of_mem
  have hkeys := pairwise_key_ne request
  have hlen : ((filtersOf request).map (changeOf request)).length < 2 ^ 31 := by
    rw [List.length_map]
    exact (filtersOf_sublist request).length_le.trans_lt (by decide)
  have hmade : KernelQueue.Made kqueue _ _ := KernelQueue.made_makeChanges hchanges hkeys
  rw [request_eq, keventRegister_eq hcall hchanges hkeys (by simpa using filtersOf_ne_nil request)
    hlen]
  constructor
  · rw [checkErrors_eq_ok_iff, List.forall_mem_map]
  · intro filter hmem
    rw [← key_changeOf, hmade.changed _ (List.mem_map_of_mem hmem), KernelQueue.entryAfter,
      entry_changeOf request (ne_user_of_mem hmem)]
  · intro key hkey
    apply hmade.unchanged key
    rw [List.forall_mem_map]
    intro filter hmem
    rw [key_changeOf]
    exact hkey filter hmem
  · exact hmade.rest

theorem identOf_injective : Function.Injective identOf := by
  intro first second heq
  have hsigned := congrArg UInt64.toInt64 heq
  simp only [identOf, Int64.toInt64_toUInt64] at hsigned
  have hint := congrArg Int64.toInt hsigned
  rw [Int32.toInt_toInt64, Int32.toInt_toInt64] at hint
  exact Int32.toInt.inj hint

/-! ## Deliveries -/

def firings (key : Key) (events : List Kevent) : Nat := (events.map Kevent.key).count key

/-- The events that a poll has added to the sink for some filters: all of them, but for one event of
each other filter that has fired. -/
def addedFor (keys : List Key) (delivered : List Kevent) (handed : List Event) : Multiset Event :=
  let others := delivered.filter fun kevent => !keys.contains kevent.key
  (handed : Multiset Event) - (others.map keventToEvent : List Event)

theorem addedFor_map (keys : List Key) (delivered : List Kevent) :
    addedFor keys delivered (delivered.map keventToEvent)
      = ((delivered.filter fun kevent => kevent.key ∈ keys).map keventToEvent : List Event) := by
  have hsplit := Multiset.filter_add_not (fun kevent : Kevent => kevent.key ∈ keys)
    (delivered : Multiset Kevent)
  have hmap := congrArg (Multiset.map keventToEvent) hsplit
  rw [Multiset.map_add, Multiset.filter_coe, Multiset.filter_coe, Multiset.map_coe,
    Multiset.map_coe, Multiset.map_coe] at hmap
  have hothers : (fun kevent : Kevent => !keys.contains kevent.key)
      = fun kevent => decide (kevent.key ∉ keys) :=
    funext fun kevent => by rw [List.contains_eq_mem, decide_not]
  rw [addedFor, hothers, ← hmap]
  exact Multiset.add_sub_cancel_right

/-- Each of the filters of a handle accounts for the events that are added for it. -/
theorem card_addedFor (fd : RawFd) (delivered : List Kevent) :
    (addedFor (descriptorKeys fd) delivered (delivered.map keventToEvent)).card
      = firings (identOf fd, .write) delivered + firings (identOf fd, .read) delivered := by
  rw [addedFor_map, Multiset.coe_card, List.length_map]
  induction delivered with
  | nil => rfl
  | cons kevent delivered ih =>
      have hcons (key : Key) : firings key (kevent :: delivered)
          = firings key delivered + if kevent.key = key then 1 else 0 := by
        simp [firings, List.count_cons]
      rw [hcons, hcons]
      by_cases hkey : kevent.key ∈ descriptorKeys fd
      · rw [List.filter_cons_of_pos (by simpa using hkey), List.length_cons, ih]
        rcases List.mem_pair.mp hkey with heq | heq <;> rw [heq] <;> simp <;> omega
      · rw [List.filter_cons_of_neg (by simpa using hkey), ih]
        have hne := mt List.mem_pair.mpr hkey
        rw [not_or] at hne
        rw [if_neg hne.1, if_neg hne.2, add_zero, add_zero]

/-- What deliveries do to the entry of one filter: it stays as it is, unless the filter has fired
and is a oneshot, which fires once and is gone. -/
inductive Fired : Option Knote → Nat → Option Knote → Prop where
  | quiet (knote : Option Knote) : Fired knote 0 knote
  | oneshot (knote : Knote) : knote.isOneshot = true → Fired (some knote) 1 none
  | repeated (knote : Knote) (n : Nat) : knote.isOneshot = false → Fired (some knote) n (some knote)

theorem Fired.succ {knote : Knote} {n : Nat} {after : Option Knote}
    (h : Fired (if knote.isOneshot then none else some knote) n after) :
    Fired (some knote) (n + 1) after := by
  by_cases honeshot : knote.isOneshot = true
  · rw [if_pos honeshot] at h
    cases h with
    | quiet => exact .oneshot knote honeshot
  · rw [if_neg honeshot] at h
    cases h with
    | quiet => exact .repeated knote 1 (eq_false_of_ne_true honeshot)
    | oneshot _ hflag => exact absurd hflag honeshot
    | repeated _ n hflag => exact .repeated knote (n + 1) hflag

theorem fired_deliver (kqueue : KernelQueue) (nevents : Nat) (active : List Key) (key : Key) :
    Fired (kqueue.knotes key) (firings key (kqueue.deliver nevents active).1)
      ((kqueue.deliver nevents active).2.knotes key) := by
  induction active generalizing kqueue nevents with
  | nil =>
      cases nevents with
      | zero => exact .quiet _
      | succ nevents => exact .quiet _
  | cons first active ih =>
      cases nevents with
      | zero => exact .quiet _
      | succ nevents =>
          rw [KernelQueue.deliver]
          cases hknote : kqueue.knotes first with
          | none => exact ih kqueue (nevents + 1)
          | some knote =>
              let left := if knote.isOneshot then kqueue.setKnote first none else kqueue
              have hleft := ih left nevents
              by_cases heq : key = first
              · subst heq
                have hentry : left.knotes key
                    = if knote.isOneshot then none else some knote := by
                  by_cases honeshot : knote.isOneshot = true
                  · simp [left, honeshot, KernelQueue.setKnote]
                  · simp [left, honeshot, hknote]
                rw [hentry] at hleft
                have hcount (event : Kevent) (events : List Kevent) (hkey : event.key = key) :
                    firings key (event :: events) = firings key events + 1 := by
                  rw [firings, List.map_cons, hkey, List.count_cons_self, firings]
                dsimp only
                rw [hcount _ _ rfl, hknote]
                exact hleft.succ
              · have hentry : left.knotes key = kqueue.knotes key := by
                  by_cases honeshot : knote.isOneshot = true
                  · simp [left, honeshot, KernelQueue.knotes_setKnote_of_ne heq]
                  · simp [left, honeshot]
                rw [hentry] at hleft
                have hcount (event : Kevent) (events : List Kevent) (hkey : event.key = first) :
                    firings key (event :: events) = firings key events := by
                  rw [firings, List.map_cons, hkey, List.count_cons_of_ne (Ne.symm heq), firings]
                dsimp only
                rw [hcount _ _ rfl]
                exact hleft

/-- The event of a filter that is there, and what it leaves behind. -/
def KernelQueue.fire (kqueue : KernelQueue) (key : Key) : Option (Kevent × KernelQueue) :=
  (kqueue.knotes key).map fun knote =>
    (knote.kevent key, if knote.isOneshot then kqueue.setKnote key none else kqueue)

theorem deliver_eq (kqueue : KernelQueue) (nevents : Nat) (active : List Key) :
    kqueue.deliver nevents active
      = let delivered := Deliveries.deliver KernelQueue.fire kqueue nevents active
        (delivered.1, { delivered.2.2 with active := delivered.2.1 }) := by
  induction active generalizing kqueue nevents with
  | nil => cases nevents <;> rfl
  | cons first active ih =>
      cases nevents with
      | zero => rfl
      | succ nevents =>
          rw [KernelQueue.deliver]
          cases hknote : kqueue.knotes first with
          | none =>
              have hfire : kqueue.fire first = none := Option.map_eq_none_iff.mpr hknote
              rw [Deliveries.deliver_of_none hfire]
              exact ih kqueue (nevents + 1)
          | some knote =>
              have hfire : kqueue.fire first = some _ := congrArg (Option.map _) hknote
              rw [Deliveries.deliver_of_some hfire]
              dsimp only
              rw [ih]

theorem length_deliver_le (kqueue : KernelQueue) (nevents : Nat) (active : List Key) :
    (kqueue.deliver nevents active).1.length ≤ nevents := by
  rw [deliver_eq]
  exact Deliveries.length_deliver_le _ _ _

section Poll

variable {ES : Type} [Sink ES]

/-- The events that a poll with the given sink takes off a kqueue. -/
def taken (kqueue : KernelQueue) (sink : ES) : List Kevent :=
  if kqueue.callError.isSome then []
  else (kqueue.deliver ((Sink.capacityLeft sink).min eventsCap) kqueue.active).1

theorem length_taken_le (kqueue : KernelQueue) (sink : ES) :
    (taken kqueue sink).length ≤ (Sink.capacityLeft sink).min eventsCap := by
  unfold taken
  split
  · exact Nat.zero_le _
  · exact length_deliver_le _ _ _

/-- A poll adds the events it takes to the sink, and does to the filters what their deliveries
do. -/
theorem select_spec (selector : Selector) (kqueue : KernelQueue) (sink : ES)
    (timeout : Option Duration) :
    (selector.select sink timeout kqueue).1
        = (if taken kqueue sink = [] then sink
          else Sink.extend sink ((taken kqueue sink).map keventToEvent))
      ∧ ∀ key, Fired (kqueue.knotes key) (firings key (taken kqueue sink))
        ((selector.select sink timeout kqueue).2.1.knotes key) := by
  have hlength := length_taken_le kqueue sink
  have hcap := (Sink.capacityLeft sink).min_le eventsCap
  unfold taken at hlength ⊢
  cases hcall : kqueue.callError with
  | some errno =>
      have hkevent (nevents : Nat) : kqueue.kevent [] nevents = (⟨-1, [], errno⟩, kqueue) := by
        rw [KernelQueue.kevent, hcall]
      simp only [Selector.select, Kernel.kevent, hkevent]
      exact ⟨rfl, fun key => .quiet _⟩
  | none =>
      rw [hcall] at hlength
      simp only [Option.isSome_none, Bool.false_eq_true, if_false] at hlength ⊢
      have hkevent (nevents : Nat) : kqueue.kevent [] nevents
          = (⟨Int32.ofNat (kqueue.deliver nevents kqueue.active).1.length,
            (kqueue.deliver nevents kqueue.active).1, 0⟩,
            (kqueue.deliver nevents kqueue.active).2) := by
        simp only [KernelQueue.kevent, hcall]
        rfl
      have hfired := fired_deliver kqueue ((Sink.capacityLeft sink).min eventsCap) kqueue.active
      simp only [Selector.select, Kernel.kevent, hkevent]
      generalize kqueue.deliver ((Sink.capacityLeft sink).min eventsCap) kqueue.active = delivered
        at hlength hfired ⊢
      rw [take_written (hlength.trans hcap) _ _ fun slots =>
        (Sink.extend sink (slots.map slotToEvent), _, _), map_slotToEvent]
      split <;> exact ⟨rfl, hfired⟩

/-- Every event that is taken is handed on once. -/
theorem log_select (selector : Selector) (kqueue : KernelQueue) (sink : ES)
    (timeout : Option Duration) :
    (selector.select (⟨sink, []⟩ : Tap ES) timeout kqueue).1.log
      = (taken kqueue sink).map keventToEvent := by
  rw [(select_spec selector kqueue (⟨sink, []⟩ : Tap ES) timeout).1]
  split_ifs with hnone
  · have hnone : taken kqueue sink = [] := hnone
    rw [hnone]
    rfl
  · rfl

end Poll

/-! ## One filter -/

/-- The filter is there, and no other filter has its id. -/
structure KernelQueue.Sole (kqueue : KernelQueue) (key : Key) (knote : Knote) : Prop where
  entry : kqueue.knotes key = some knote
  sole : ∀ key' knote', kqueue.knotes key' = some knote' → knote'.udata = knote.udata → key' = key

def Knote.shares (knote : Knote) (kevent : Kevent) : Bool := kevent.udata = knote.udata

section Sole

variable {key : Key} {knote : Knote}

/-- A filter that is no oneshot fires over and over. -/
theorem owns_fire (honeshot : knote.isOneshot = false) :
    Deliveries.Owns KernelQueue.fire (fun kqueue => kqueue.Sole key knote) (· ≠ key)
      knote.shares key (knote.kevent key) where
  fire_own kqueue h := by
    refine ⟨kqueue, ?_, h⟩
    rw [KernelQueue.fire, h.entry]
    dsimp only [Option.map_some]
    rw [honeshot, if_neg Bool.false_ne_true]
  mine_event := decide_eq_true rfl
  fire_other kqueue other event left h hne hfire := by
    obtain ⟨knote', hknote', heq⟩ := Option.map_eq_some_iff.mp hfire
    obtain ⟨rfl, rfl⟩ := Prod.mk.inj heq
    refine ⟨decide_eq_false fun hid => hne (h.sole _ _ hknote' hid), ?_⟩
    split
    · refine ⟨(KernelQueue.knotes_setKnote_of_ne hne.symm _).trans h.entry,
        fun key' knote'' hmem => ?_⟩
      by_cases heq : key' = other
      · subst heq
        cases (Function.update_self _ _ _).symm.trans hmem
      · exact h.sole key' knote'' ((KernelQueue.knotes_setKnote_of_ne heq _).symm.trans hmem)
    · exact h

/-- Deliveries leave the filter what it is, and add no other filters. -/
theorem KernelQueue.Sole.of_fired {kqueue after : KernelQueue} (h : kqueue.Sole key knote)
    (honeshot : knote.isOneshot = false)
    (hfired : ∀ key, ∃ n, Fired (kqueue.knotes key) n (after.knotes key)) :
    after.Sole key knote := by
  constructor
  · obtain ⟨n, hfired⟩ := hfired key
    rw [h.entry] at hfired
    generalize after.knotes key = later at hfired
    cases hfired with
    | quiet => rfl
    | oneshot _ hflag => cases honeshot.symm.trans hflag
    | repeated => rfl
  · intro key' knote' hknote'
    obtain ⟨n, hfired⟩ := hfired key'
    rw [hknote'] at hfired
    generalize hbefore : kqueue.knotes key' = before at hfired
    cases hfired with
    | quiet => exact h.sole key' knote' hbefore
    | repeated => exact h.sole key' knote' hbefore

/-- The events with the id of the filter that a poll adds to the sink: at most one, of the filter,
which is there if the filter is going to fire and the poll gets to it. -/
theorem delivered_select {ES : Type} [Sink ES] {kqueue : KernelQueue}
    (hsole : kqueue.Sole key knote) (honeshot : knote.isOneshot = false) {ahead behind : List Key}
    {present : Bool}
    (hactive : kqueue.active = ahead ++ (if present then [key] else []) ++ behind)
    (hothers : ∀ other ∈ ahead ++ behind, other ≠ key) (selector : Selector) (sink : ES)
    (timeout : Option Duration) :
    let polled := selector.select (⟨sink, []⟩ : Tap ES) timeout kqueue
    Deliveries.Delivered (Event.isOf ⟨knote.udata⟩) (keventToEvent (knote.kevent key)) present
        (kqueue.callError.isNone
          && decide (ahead.length < (Sink.capacityLeft sink).min eventsCap)) polled.1.log
      ∧ polled.2.1.Sole key knote := by
  obtain ⟨hahead, hbehind⟩ := List.forall_mem_append.mp hothers
  have howns := @owns_fire key knote honeshot
  obtain ⟨hdelivered, -⟩ := howns.delivered hsole
    ((Sink.capacityLeft sink).min eventsCap) hahead hbehind present
  have hmine : Event.isOf ⟨knote.udata⟩ (keventToEvent (knote.kevent key)) = true :=
    decide_eq_true rfl
  have hfired := (select_spec selector kqueue (⟨sink, []⟩ : Tap ES) timeout).2
  refine ⟨?_, hsole.of_fired honeshot fun key => ⟨_, hfired key⟩⟩
  rw [log_select, taken]
  cases kqueue.callError with
  | some errno => exact .of_filter_nil hmine rfl fun _ => rfl
  | none =>
      rw [← hactive] at hdelivered
      have hshares (kevent : Kevent) :
          Event.isOf ⟨knote.udata⟩ (keventToEvent kevent) = knote.shares kevent :=
        decide_eq_decide.mpr ⟨fun heq => congrArg Id.val heq, fun heq => congrArg Id.mk heq⟩
      simp only [Option.isSome_none, Bool.false_eq_true, if_false, deliver_eq]
      exact hdelivered.map keventToEvent howns.mine_event hshares

end Sole

end Gaea.Sys.Kqueue
