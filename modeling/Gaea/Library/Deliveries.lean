import Mathlib.Data.List.Basic
import Mathlib.Order.Basic

/-!
# Delivering from a list of keys

A system delivers the events of keys from the front of a list, as long as there is room for them. A
key that has no event is passed over, and an event that is delivered may change the system. One key
gets its event delivered if it is in the list and there is room for more than what comes before it,
whatever the other keys do, and at most once.
-/

namespace Deliveries

variable {σ κ ε : Type*}

/-- `fire` gives the event of a key, if it has one, and what the system is then left with. -/
def deliver (fire : σ → κ → Option (ε × σ)) : σ → Nat → List κ → List ε × List κ × σ
  | s, 0, keys => ([], keys, s)
  | s, _ + 1, [] => ([], [], s)
  | s, room + 1, key :: keys =>
      match fire s key with
      | none => deliver fire s (room + 1) keys
      | some (event, t) =>
          let rest := deliver fire t room keys
          (event :: rest.1, rest.2)

variable {fire : σ → κ → Option (ε × σ)} {s : σ} {room : Nat}

theorem deliver_of_none {key : κ} (h : fire s key = none) (room : Nat) (keys : List κ) :
    deliver fire s (room + 1) (key :: keys) = deliver fire s (room + 1) keys := by
  rw [deliver, h]

theorem deliver_of_some {key : κ} {event : ε} {t : σ} (h : fire s key = some (event, t))
    (room : Nat) (keys : List κ) :
    deliver fire s (room + 1) (key :: keys)
      = (event :: (deliver fire t room keys).1, (deliver fire t room keys).2) := by
  rw [deliver, h]

theorem length_deliver_le (s : σ) (room : Nat) (keys : List κ) :
    (deliver fire s room keys).1.length ≤ room := by
  induction keys generalizing s room with
  | nil => cases room <;> exact Nat.zero_le _
  | cons key keys ih =>
      cases room with
      | zero => exact Nat.zero_le _
      | succ room =>
          cases hfire : fire s key with
          | none =>
              rw [deliver_of_none hfire]
              exact ih s (room + 1)
          | some fired =>
              rw [deliver_of_some hfire]
              exact Nat.succ_le_succ (ih fired.2 room)

/-- The keys that are left are some of those that were there. -/
theorem deliver_subset (s : σ) (room : Nat) (keys : List κ) :
    (deliver fire s room keys).2.1 ⊆ keys := by
  induction keys generalizing s room with
  | nil => cases room <;> exact List.Subset.refl _
  | cons key keys ih =>
      cases room with
      | zero => exact List.Subset.refl _
      | succ room =>
          cases hfire : fire s key with
          | none =>
              rw [deliver_of_none hfire]
              exact List.subset_cons_of_subset _ (ih s (room + 1))
          | some fired =>
              rw [deliver_of_some hfire]
              exact List.subset_cons_of_subset _ (ih fired.2 room)

/-! ## The events of one key -/

/-- Among the systems with `I` a key always has the same event, which is told from those of other
keys by `mine`. -/
structure Owns (fire : σ → κ → Option (ε × σ)) (I : σ → Prop) (Other : κ → Prop) (mine : ε → Bool)
    (own : κ) (event : ε) : Prop where
  fire_own : ∀ s, I s → ∃ t, fire s own = some (event, t) ∧ I t
  mine_event : mine event = true
  fire_other : ∀ s key event t, I s → Other key → fire s key = some (event, t) →
    mine event = false ∧ I t

section Owns

variable {I : σ → Prop} {Other : κ → Prop} {mine : ε → Bool} {own : κ} {event : ε}

theorem Owns.deliver_others (h : Owns fire I Other mine own event) (hs : I s) (room : Nat)
    {keys : List κ} (hkeys : ∀ key ∈ keys, Other key) :
    (deliver fire s room keys).1.filter mine = [] ∧ I (deliver fire s room keys).2.2 := by
  induction keys generalizing s room with
  | nil => cases room <;> exact ⟨rfl, hs⟩
  | cons key keys ih =>
      obtain ⟨hkey, hkeys⟩ := List.forall_mem_cons.mp hkeys
      cases room with
      | zero => exact ⟨rfl, hs⟩
      | succ room =>
          rcases hfire : fire s key with _ | ⟨other, t⟩
          · rw [deliver_of_none hfire]
            exact ih hs (room + 1) hkeys
          · obtain ⟨hmine, ht⟩ := h.fire_other s key other t hs hkey hfire
            rw [deliver_of_some hfire, List.filter_cons_of_neg (by simp [hmine])]
            exact ih ht room hkeys

/-- The event of the key is delivered at most once, if the key is in the list, and is delivered if
there is room for it after all keys that come before. -/
structure Delivered (mine : ε → Bool) (event : ε) (present reached : Bool) (events : List ε) :
    Prop where
  once : events.filter mine = [] ∨ events.filter mine = [event]
  present_of_mem : event ∈ events → present = true
  mem_of_reached : present = true → reached = true → event ∈ events

theorem Delivered.of_filter_nil (hmine : mine event = true) {events : List ε} {present : Bool}
    (h : events.filter mine = []) {reached : Bool} (hreached : present = true → reached = false) :
    Delivered mine event present reached events where
  once := Or.inl h
  present_of_mem hmem := absurd (List.mem_filter.mpr ⟨hmem, hmine⟩) (h ▸ List.not_mem_nil)
  mem_of_reached hpresent htrue := absurd (hreached hpresent ▸ htrue) Bool.false_ne_true

theorem Delivered.imp {present reached reached' : Bool} {events : List ε}
    (h : Delivered mine event present reached events) (himp : reached' = true → reached = true) :
    Delivered mine event present reached' events :=
  ⟨h.once, h.present_of_mem, fun hpresent hreached => h.mem_of_reached hpresent (himp hreached)⟩

/-- An event of another key makes no difference. -/
theorem Delivered.cons {present reached : Bool} {events : List ε} {other : ε}
    (h : Delivered mine event present reached events) (hmine : mine event = true)
    (hother : mine other = false) : Delivered mine event present reached (other :: events) := by
  have hfilter : (other :: events).filter mine = events.filter mine :=
    List.filter_cons_of_neg (by simp [hother])
  have hne : event ≠ other := by
    rintro rfl
    exact Bool.false_ne_true (hother.symm.trans hmine)
  constructor
  · rw [hfilter]
    exact h.once
  · exact fun hmem => h.present_of_mem ((List.mem_cons.mp hmem).resolve_left hne)
  · exact fun hpresent hreached => List.mem_cons_of_mem _ (h.mem_of_reached hpresent hreached)

theorem Delivered.map {ε' : Type*} {present reached : Bool} {events : List ε}
    (h : Delivered mine event present reached events) (f : ε → ε') (hmine : mine event = true)
    {mine' : ε' → Bool} (hf : ∀ event, mine' (f event) = mine event) :
    Delivered mine' (f event) present reached (events.map f) := by
  have hfilter : (events.map f).filter mine' = (events.filter mine).map f := by
    rw [List.filter_map]
    exact congrArg (List.map f) (List.filter_congr fun event _ => hf event)
  refine ⟨?_, fun hmem => h.present_of_mem ?_, fun hpresent hreached =>
    List.mem_map_of_mem (h.mem_of_reached hpresent hreached)⟩
  · rw [hfilter]
    rcases h.once with hnone | hone
    · exact Or.inl (congrArg (List.map f) hnone)
    · exact Or.inr (congrArg (List.map f) hone)
  · obtain ⟨other, hother, heq⟩ := List.mem_map.mp hmem
    have hmem' : other ∈ events.filter mine :=
      List.mem_filter.mpr ⟨hother, by rw [← hf, heq, hf, hmine]⟩
    rcases h.once with hnone | hone
    · rw [hnone] at hmem'
      cases hmem'
    · rw [hone, List.mem_singleton] at hmem'
      exact hmem' ▸ hother

theorem Owns.delivered (h : Owns fire I Other mine own event) (hs : I s) (room : Nat)
    {ahead behind : List κ} (hahead : ∀ key ∈ ahead, Other key)
    (hbehind : ∀ key ∈ behind, Other key) (present : Bool) :
    let delivered := deliver fire s room (ahead ++ (if present then [own] else []) ++ behind)
    Delivered mine event present (decide (ahead.length < room)) delivered.1
      ∧ I delivered.2.2 := by
  induction ahead generalizing s room with
  | nil =>
      cases present with
      | false =>
          obtain ⟨hnone, hafter⟩ := h.deliver_others hs room hbehind
          exact ⟨.of_filter_nil h.mine_event hnone nofun, hafter⟩
      | true =>
          cases room with
          | zero => exact ⟨.of_filter_nil h.mine_event rfl fun _ => rfl, hs⟩
          | succ room =>
              obtain ⟨t, hfire, ht⟩ := h.fire_own s hs
              obtain ⟨hnone, hafter⟩ := h.deliver_others ht room hbehind
              have hdeliver := deliver_of_some hfire room behind
              dsimp only [List.nil_append, List.cons_append, if_true]
              rw [if_pos rfl, List.singleton_append, hdeliver]
              refine ⟨⟨Or.inr ?_, fun _ => rfl, fun _ _ => List.mem_cons_self⟩, hafter⟩
              rw [List.filter_cons_of_pos h.mine_event, hnone]
  | cons key ahead ih =>
      obtain ⟨hkey, hahead⟩ := List.forall_mem_cons.mp hahead
      cases room with
      | zero => exact ⟨.of_filter_nil h.mine_event rfl fun _ => rfl, hs⟩
      | succ room =>
          dsimp only [List.cons_append]
          rcases hfire : fire s key with _ | ⟨other, t⟩
          · obtain ⟨hdelivered, hafter⟩ := ih hs (room + 1) hahead
            have hreached (hlt : decide ((key :: ahead).length < room + 1) = true) :
                decide (ahead.length < room + 1) = true := by
              rw [decide_eq_true_iff] at hlt ⊢
              rw [List.length_cons] at hlt
              omega
            rw [deliver_of_none hfire]
            exact ⟨hdelivered.imp hreached, hafter⟩
          · obtain ⟨hmine, ht⟩ := h.fire_other s key other t hs hkey hfire
            obtain ⟨hdelivered, hafter⟩ := ih ht room hahead
            have hreached (hlt : decide ((key :: ahead).length < room + 1) = true) :
                decide (ahead.length < room) = true := by
              rw [decide_eq_true_iff] at hlt ⊢
              rw [List.length_cons] at hlt
              omega
            rw [deliver_of_some hfire]
            exact ⟨(hdelivered.imp hreached).cons h.mine_event hmine, hafter⟩

end Owns

end Deliveries
