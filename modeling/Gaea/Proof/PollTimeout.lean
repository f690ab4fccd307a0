import Gaea.Proof.TimersTimeout
import Mathlib.Order.Bounds.Basic
import Mathlib.Order.WithBot

/-!
# The timeout of a blocking poll

`poll` asks every source for the longest time it may block, and hands the first source the least of
the answers and of its own timeout. No timeout at all is the longest one, so timeouts are compared
in `WithTop Duration`.
-/

namespace Gaea

variable {S ES E W : Type}

/-! ## The least timeout -/

/-- A timeout as a limit on the time to block, the top one where there is none. -/
def limit (timeout : Option Duration) : WithTop Duration := timeout

theorem limit_eq_top_iff {timeout : Option Duration} : limit timeout = ⊤ ↔ timeout = none := Iff.rfl

theorem limit_injective : Function.Injective limit := fun _ _ h => h

theorem limit_le_iff {d e : Duration} : limit (some d) ≤ limit (some e) ↔ d ≤ e :=
  WithTop.coe_le_coe

theorem limit_minTimeout (left right : Option Duration) :
    limit (minTimeout left right) = min (limit left) (limit right) := by
  cases left with
  | none => cases right <;> exact (min_eq_right le_top).symm
  | some left =>
      cases right with
      | none => exact (min_eq_left le_top).symm
      | some right => exact WithTop.coe_min left right

/-- The least of some timeouts. -/
def LeastOf (timeouts : List (Option Duration)) (given : Option Duration) : Prop :=
  IsLeast (Set.image limit {t | t ∈ timeouts}) (limit given)

namespace LeastOf

variable {timeouts : List (Option Duration)} {given given' : Option Duration}

theorem mem (h : LeastOf timeouts given) : given ∈ timeouts := by
  obtain ⟨t, ht, heq⟩ := h.1
  exact limit_injective heq ▸ ht

theorem exists_le (h : LeastOf timeouts given) {e : Duration} (he : some e ∈ timeouts) :
    ∃ d, given = some d ∧ d ≤ e := by
  have hle := h.2 ⟨some e, he, rfl⟩
  cases given with
  | none => cases top_le_iff.mp hle
  | some d => exact ⟨d, rfl, limit_le_iff.mp hle⟩

theorem eq_none_iff (h : LeastOf timeouts given) : given = none ↔ ∀ t ∈ timeouts, t = none := by
  constructor
  · rintro rfl t ht
    exact limit_eq_top_iff.mp (top_le_iff.mp (h.2 ⟨t, ht, rfl⟩))
  · intro hall
    exact hall given h.mem

theorem unique (h : LeastOf timeouts given) (h' : LeastOf timeouts given') : given' = given :=
  limit_injective (IsLeast.unique h' h)

theorem of_mem_iff {timeouts' : List (Option Duration)} (h : LeastOf timeouts given)
    (hmem : ∀ t, t ∈ timeouts' ↔ t ∈ timeouts) : LeastOf timeouts' given := by
  have hset : {t | t ∈ timeouts'} = {t | t ∈ timeouts} := Set.ext hmem
  rw [LeastOf, hset]
  exact h

end LeastOf

/-- The sources in the order in which they are asked for their timeouts, each with the world in
which it is asked. -/
def asks (ES E : Type) [Source S ES E W] : List S → W → List (S × W)
  | [], _ => []
  | source :: sources, world =>
      (source, world) :: asks ES E sources (Source.maxTimeout ES E source world).2

def maxTimeouts (ES E : Type) [Source S ES E W] (sources : List S) (world : W) :
    List (Option Duration) :=
  (asks ES E sources world).map fun ask => (Source.maxTimeout ES E ask.1 ask.2).1

theorem leastOf_computeTimeout [Source S ES E W] (timeout : Option Duration) (sources : List S)
    (world : W) :
    LeastOf (timeout :: maxTimeouts ES E sources world)
      (computeTimeout ES E timeout sources world).1 := by
  induction sources generalizing timeout world with
  | nil =>
      refine ⟨⟨timeout, List.mem_cons_self, rfl⟩, ?_⟩
      rintro _ ⟨t, ht, rfl⟩
      rw [List.mem_singleton.mp ht]
      exact le_rfl
  | cons source sources ih =>
      have hmin := limit_minTimeout timeout (Source.maxTimeout ES E source world).1
      obtain ⟨hmem, hle⟩ :=
        ih (minTimeout timeout (Source.maxTimeout ES E source world).1)
          (Source.maxTimeout ES E source world).2
      constructor
      · obtain ⟨t, ht, htimeout⟩ := hmem
        rcases List.mem_cons.mp ht with rfl | ht
        · rw [hmin] at htimeout
          rcases min_choice (limit timeout) (limit (Source.maxTimeout ES E source world).1)
            with hleft | hright
          · exact ⟨timeout, List.mem_cons_self, hleft.symm.trans htimeout⟩
          · exact ⟨_, List.mem_cons_of_mem _ List.mem_cons_self, hright.symm.trans htimeout⟩
        · exact ⟨t, List.mem_cons_of_mem _ (List.mem_cons_of_mem _ ht), htimeout⟩
      · rintro _ ⟨t, ht, rfl⟩
        have hfirst := hle ⟨_, List.mem_cons_self, rfl⟩
        rw [hmin] at hfirst
        rcases List.mem_cons.mp ht with rfl | ht
        · exact hfirst.trans (min_le_left _ _)
        · rcases List.mem_cons.mp ht with rfl | ht
          · exact hfirst.trans (min_le_right _ _)
          · exact hle ⟨t, List.mem_cons_of_mem _ ht, rfl⟩

/-! ## The timeout that is handed over -/

/-- A source with the timeouts that its blocking polls have been given. -/
structure Asked (S : Type) where
  source : S
  given : List (Option Duration)
deriving DecidableEq

namespace Asked

instance [Source S ES E W] : Source (Asked S) ES E W where
  maxTimeout asked world := Source.maxTimeout ES E asked.source world
  poll asked sink world :=
    (Source.poll asked.source sink world).map fun source => ⟨source, asked.given⟩
  blockingPoll asked sink timeout world :=
    (Source.blockingPoll asked.source sink timeout world).map fun source =>
      ⟨source, asked.given ++ [timeout]⟩

/-- Keeping the timeouts changes nothing about what `poll` does. -/
theorem pollMap_source [Source S ES E W] : PollMap ES E W (Asked.source : Asked S → S) where
  maxTimeout _ _ := rfl
  poll _ _ _ := rfl
  blockingPoll _ _ _ _ := rfl

end Asked

theorem given_poll [Source S ES E W] (source : Asked S) (sources : List (Asked S)) (sink : ES)
    (timeout : Option Duration) (world : W) :
    (poll (source :: sources) sink timeout world : Polled _ ES E W).source.head?.map Asked.given
      = some (source.given ++ [(computeTimeout ES E timeout (source :: sources) world).1]) := by
  rw [poll]
  dsimp only
  split <;> rfl

/-! ## Queues and timers -/

theorem Duration.eq_zero_of_le {d : Duration} (h : d ≤ Duration.zero) : d = Duration.zero :=
  Duration.ext (Nat.le_zero.mp h)

theorem Queue.maxTimeout_of_ne_nil {queue : Queue} (hne : queue.events ≠ []) :
    queue.maxTimeout = some Duration.zero := by
  rw [Queue.maxTimeout, if_neg (by simpa using hne)]

theorem Timers.exists_maxTimeout_le [Clock W] {timers : Timers} {d : Deadline}
    (hd : d ∈ timers.pending) (world : W) :
    ∃ t, (timers.maxTimeout world).1 = some t
      ∧ t.nanos ≤ d.deadline.nanos - (Clock.now world).1.nanos := by
  cases htimeout : (timers.maxTimeout world).1 with
  | none =>
      rw [maxTimeout_eq_none_iff.mp htimeout] at hd
      cases Multiset.notMem_zero d hd
  | some t =>
      obtain ⟨e, -, hmin, rfl⟩ := exists_of_maxTimeout_eq_some htimeout
      refine ⟨_, rfl, ?_⟩
      rw [nanos_timeUntil]
      exact Nat.sub_le_sub_right (Instant.le_iff.mp (hmin d hd)) _

/-- The answer of a source that is asked is one of the timeouts. -/
theorem maxTimeout_mem [Source S ES E W] {source : S} {sources : List S} {world asked : W}
    (hask : (source, asked) ∈ asks ES E sources world) :
    (Source.maxTimeout ES E source asked).1 ∈ maxTimeouts ES E sources world :=
  List.mem_map_of_mem hask

section Sources

variable [Sink ES] [Clock W] [Source S ES E W]

/-- **The timeout of a blocking poll is the least one.** The first source is given no timeout if and
only if there is none at all, and else the least one, in whatever order the sources are. It does not
block while a queue holds an event or a deadline has expired, nor past a deadline. -/
theorem poll_timeout_least (source : Asked (Queue ⊕ Timers ⊕ S))
    (sources : List (Asked (Queue ⊕ Timers ⊕ S))) (sink : ES) (timeout : Option Duration)
    (world : W) :
    ∃ given : Option Duration,
      (poll (source :: sources) sink timeout world : Polled _ ES E W).source.head?.map Asked.given
        = some (source.given ++ [given])
      ∧ (given = none ↔ timeout = none
        ∧ ∀ t ∈ maxTimeouts ES E (source :: sources) world, t = none)
      ∧ (∀ d, given = some d →
        (timeout = some d ∨ some d ∈ maxTimeouts ES E (source :: sources) world)
        ∧ ∀ e, timeout = some e ∨ some e ∈ maxTimeouts ES E (source :: sources) world → d ≤ e)
      ∧ (∀ (source' : Asked (Queue ⊕ Timers ⊕ S)) sources' (sink' : ES) (world' : W),
        (maxTimeouts ES E (source' :: sources') world').Perm
          (maxTimeouts ES E (source :: sources) world) →
        (poll (source' :: sources') sink' timeout world' :
            Polled _ ES E W).source.head?.map Asked.given = some (source'.given ++ [given]))
      ∧ (∀ given' queue asked, (⟨.inl queue, given'⟩, asked) ∈ asks ES E (source :: sources) world →
        queue.events ≠ [] → given = some Duration.zero)
      ∧ ∀ given' timers asked,
        (⟨.inr (.inl timers), given'⟩, asked) ∈ asks ES E (source :: sources) world →
        ∀ d ∈ timers.pending,
          (d.deadline ≤ (Clock.now asked).1 → given = some Duration.zero)
          ∧ ∃ t, given = some t ∧ t.nanos ≤ d.deadline.nanos - (Clock.now asked).1.nanos := by
  have hleast : LeastOf (timeout :: maxTimeouts ES E (source :: sources) world) _ :=
    leastOf_computeTimeout timeout (source :: sources) world
  have hgiven := given_poll (E := E) source sources sink timeout world
  generalize (computeTimeout ES E timeout (source :: sources) world).1 = given at hleast hgiven
  have hzero (hmem : some Duration.zero ∈ maxTimeouts ES E (source :: sources) world) :
      given = some Duration.zero := by
    obtain ⟨d, rfl, hle⟩ := hleast.exists_le (List.mem_cons_of_mem _ hmem)
    rw [Duration.eq_zero_of_le hle]
  refine ⟨given, hgiven, ?_, ?_, ?_, ?_, ?_⟩
  · rw [hleast.eq_none_iff, List.forall_mem_cons]
  · rintro d rfl
    refine ⟨?_, fun e he => ?_⟩
    · exact (List.mem_cons.mp hleast.mem).imp Eq.symm id
    · obtain ⟨d', hd', hle⟩ := hleast.exists_le (List.mem_cons.mpr (he.imp Eq.symm id))
      exact Option.some.inj hd' ▸ hle
  · intro source' sources' sink' world' hperm
    have hleast' : LeastOf (timeout :: maxTimeouts ES E (source' :: sources') world') _ :=
      leastOf_computeTimeout timeout (source' :: sources') world'
    have hsame := hleast.of_mem_iff fun t => (hperm.cons timeout).mem_iff
    rw [given_poll, hsame.unique hleast']
  · intro given' queue asked hask hne
    apply hzero
    have hmem := maxTimeout_mem hask
    rwa [show (Source.maxTimeout ES E _ asked).1 = _ from Queue.maxTimeout_of_ne_nil hne] at hmem
  · intro given' timers asked hask d hd
    have hmem : (timers.maxTimeout asked).1 ∈ maxTimeouts ES E (source :: sources) world :=
      maxTimeout_mem hask
    constructor
    · intro hexpired
      apply hzero
      rwa [Timers.maxTimeout_eq_zero_iff.mpr ⟨d, hd, hexpired⟩] at hmem
    · obtain ⟨t, htimeout, hle⟩ := Timers.exists_maxTimeout_le hd asked
      rw [htimeout] at hmem
      obtain ⟨t', rfl, hle'⟩ := hleast.exists_le (List.mem_cons_of_mem _ hmem)
      exact ⟨t', rfl, Nat.le_trans hle' hle⟩

end Sources

end Gaea
