import Gaea.Library.BitFlags
import Gaea.Signals
import Mathlib.Data.Fintype.Basic

/-!
# Signal sets

A `SignalSet` that is built from the operations on signals and sets is a finite set of signals: what
it contains, its size, when two of them are equal and what its iterator gives are all read off that
set.
-/

namespace Gaea

open BitFlags

instance : Fintype Signal :=
  ⟨{.interrupt, .terminate, .quit}, fun signal => by cases signal <;> simp⟩

namespace SignalSet

/-- The position of the bit of a signal. -/
def position : Signal → Nat
  | .interrupt => 0
  | .quit => 1
  | .terminate => 2

theorem position_lt (signal : Signal) : position signal < 3 := by
  cases signal <;> decide

theorem position_injective : Function.Injective position := by
  intro first second h
  cases first <;> cases second <;> first | rfl | cases h

theorem exists_position {n : Nat} (hn : n < 3) : ∃ signal, position signal = n := by
  match n with
  | 0 => exact ⟨.interrupt, rfl⟩
  | 1 => exact ⟨.quit, rfl⟩
  | 2 => exact ⟨.terminate, rfl⟩

theorem signalAt_eq_some_iff {n : Nat} {signal : Signal} :
    SignalSetIter.signalAt n = some signal ↔ position signal = n := by
  match n with
  | 0 => cases signal <;> simp [SignalSetIter.signalAt, position]
  | 1 => cases signal <;> simp [SignalSetIter.signalAt, position]
  | 2 => cases signal <;> simp [SignalSetIter.signalAt, position]
  | n + 3 => cases signal <;> simp [SignalSetIter.signalAt, position]

theorem toBitVec_ofSignal (signal : Signal) :
    (ofSignal signal).bits.toBitVec = BitVec.twoPow 8 (position signal) := by
  cases signal <;> decide

theorem contains_iff {set other : SignalSet} :
    set.contains other = true ↔ members other.bits.toBitVec ⊆ members set.bits.toBitVec := by
  rw [← and_eq_right_iff, contains, beq_iff_eq, ← UInt8.toBitVec_inj, UInt8.toBitVec_and]

theorem contains_ofSignal_iff {set : SignalSet} {signal : Signal} :
    set.contains (ofSignal signal) = true ↔ position signal ∈ members set.bits.toBitVec := by
  have hposition := position_lt signal
  rw [contains_iff, toBitVec_ofSignal, members_twoPow (by omega), Finset.singleton_subset_iff]

def signals (set : SignalSet) : Finset Signal :=
  Finset.univ.filter fun signal => set.contains (ofSignal signal)

theorem mem_signals {set : SignalSet} {signal : Signal} :
    signal ∈ set.signals ↔ position signal ∈ members set.bits.toBitVec := by
  rw [signals, Finset.mem_filter, contains_ofSignal_iff]
  exact and_iff_right (Finset.mem_univ signal)

theorem mem_toList {set : SignalSet} {signal : Signal} :
    signal ∈ set.toList ↔ signal ∈ set.signals := by
  rw [toList, List.mem_filter, signals, Finset.mem_filter]
  cases signal <;> simp

theorem nodup_toList (set : SignalSet) : set.toList.Nodup :=
  List.Nodup.filter _ (by decide)

theorem toFinset_toList (set : SignalSet) : set.toList.toFinset = set.signals := by
  ext signal
  rw [List.mem_toFinset, mem_toList]

/-- A set with no other bits than those of the signals. -/
def Valid (set : SignalSet) : Prop := ∀ i ∈ members set.bits.toBitVec, i < 3

theorem Valid.mem_iff {set : SignalSet} (h : Valid set) {i : Nat} :
    i ∈ members set.bits.toBitVec ↔ i ∈ set.signals.image position := by
  rw [Finset.mem_image]
  constructor
  · intro hmem
    obtain ⟨signal, rfl⟩ := exists_position (h i hmem)
    exact ⟨signal, mem_signals.mpr hmem, rfl⟩
  · rintro ⟨signal, hmem, rfl⟩
    exact mem_signals.mp hmem

theorem Valid.members_eq {set : SignalSet} (h : Valid set) :
    members set.bits.toBitVec = set.signals.image position :=
  Finset.ext fun _ => h.mem_iff

theorem Valid.size_eq {set : SignalSet} (h : Valid set) : set.size = set.signals.card := by
  rw [size, ← card_members, h.members_eq, Finset.card_image_of_injective _ position_injective]

theorem Valid.eq_iff {set other : SignalSet} (h : Valid set) (hother : Valid other) :
    set = other ↔ set.signals = other.signals := by
  refine ⟨congrArg signals, fun heq => ?_⟩
  have hmembers : members set.bits.toBitVec = members other.bits.toBitVec := by
    rw [h.members_eq, heq, hother.members_eq]
  exact congrArg SignalSet.mk (UInt8.toBitVec_inj.mp (members_inj.mp hmembers))

theorem Valid.contains_iff {set other : SignalSet} (h : Valid other) :
    set.contains other = true ↔ other.signals ⊆ set.signals := by
  rw [SignalSet.contains_iff, h.members_eq, Finset.image_subset_iff]
  exact forall₂_congr fun signal _ => mem_signals.symm

/-! ## The operations -/

theorem signals_or (set other : SignalSet) :
    (set ||| other).signals = set.signals ∪ other.signals := by
  ext signal
  change signal ∈ signals ⟨set.bits ||| other.bits⟩ ↔ _
  rw [Finset.mem_union, mem_signals, mem_signals, mem_signals, UInt8.toBitVec_or, members_or,
    Finset.mem_union]

theorem Valid.or {set other : SignalSet} (h : Valid set) (hother : Valid other) :
    Valid (set ||| other) := by
  intro i hi
  change i ∈ members (set.bits ||| other.bits).toBitVec at hi
  rw [UInt8.toBitVec_or, members_or, Finset.mem_union] at hi
  exact hi.elim (h i) (hother i)

theorem signals_ofSignal (signal : Signal) : (ofSignal signal).signals = {signal} := by
  have hposition := position_lt signal
  ext other
  rw [mem_signals, toBitVec_ofSignal, members_twoPow (by omega), Finset.mem_singleton,
    Finset.mem_singleton]
  exact position_injective.eq_iff

theorem valid_ofSignal (signal : Signal) : Valid (ofSignal signal) := by
  have hposition := position_lt signal
  intro i hi
  rw [toBitVec_ofSignal, members_twoPow (by omega), Finset.mem_singleton] at hi
  omega

theorem valid_empty : Valid empty := by
  intro i hi
  rw [show empty.bits.toBitVec = 0#8 from rfl, members_zero] at hi
  cases Finset.notMem_empty i hi

theorem all_eq : all = ofSignal .interrupt ||| ofSignal .quit ||| ofSignal .terminate := rfl

theorem valid_all : Valid all := by
  rw [all_eq]
  exact ((valid_ofSignal _).or (valid_ofSignal _)).or (valid_ofSignal _)

theorem signals_all : all.signals = Finset.univ := by
  rw [all_eq, signals_or, signals_or, signals_ofSignal, signals_ofSignal, signals_ofSignal]
  decide

end SignalSet

/-! ## The iterator -/

namespace SignalSetIter

open SignalSet

theorem toBitVec_clear (bits : UInt8) {n : Nat} (hn : n < 8) :
    (bits &&& ~~~ ((1 : UInt8) <<< UInt8.ofNat n)).toBitVec = clear bits.toBitVec n := by
  have hshift : ((1 : UInt8) <<< UInt8.ofNat n).toBitVec = BitVec.twoPow 8 n := by
    revert n
    decide
  rw [UInt8.toBitVec_and, UInt8.toBitVec_not, hshift, clear]

/-- The signals whose bits are set, lowest first. -/
theorem toList_eq (set : SignalSet) :
    set.toList = (members set.bits.toBitVec).sort.filterMap signalAt := by
  have hcontains (signal : Signal) :
      set.contains (ofSignal signal) = set.bits.toBitVec.getLsbD (position signal) := by
    rw [Bool.eq_iff_iff, contains_ofSignal_iff, mem_members]
  have hhigh : ([3, 4, 5, 6, 7].filter fun i => set.bits.toBitVec.getLsbD i).filterMap signalAt
      = [] := by
    rw [List.filterMap_eq_nil_iff]
    intro i hi
    have hmem : i ∈ [3, 4, 5, 6, 7] := List.mem_of_mem_filter hi
    simp only [List.mem_cons, List.not_mem_nil, or_false] at hmem
    rcases hmem with rfl | rfl | rfl | rfl | rfl <;> rfl
  have hrange : List.range 8 = [0, 1, 2] ++ [3, 4, 5, 6, 7] := rfl
  rw [sort_members_eq_filter, hrange, List.filter_append, List.filterMap_append, hhigh,
    List.append_nil, toList]
  simp only [hcontains, position, List.filter_cons, List.filter_nil]
  cases set.bits.toBitVec.getLsbD 0 <;> cases set.bits.toBitVec.getLsbD 1 <;>
    cases set.bits.toBitVec.getLsbD 2 <;> rfl

/-- A call either finds the set empty, or takes its first signal. -/
theorem next_cases {set : SignalSet} (h : set.Valid) :
    (set.toList = [] ∧ next ⟨set⟩ = (none, ⟨set⟩))
      ∨ ∃ signal rest, set.toList = signal :: SignalSet.toList rest ∧ rest.Valid
        ∧ next ⟨set⟩ = (some signal, ⟨rest⟩) := by
  by_cases hzero : set.bits.toBitVec = 0#8
  · left
    refine ⟨by rw [toList_eq, hzero, members_zero, Finset.sort_empty, List.filterMap_nil], ?_⟩
    unfold next
    rw [hzero]
    rfl
  · right
    have hlow := h _ (ctz_mem hzero)
    obtain ⟨signal, hsignal⟩ := exists_position hlow
    have hsome := signalAt_eq_some_iff.mpr hsignal
    let rest : SignalSet :=
      ⟨set.bits &&& ~~~ ((1 : UInt8) <<< UInt8.ofNat set.bits.toBitVec.ctz.toNat)⟩
    have hrest : rest.bits.toBitVec = clear set.bits.toBitVec set.bits.toBitVec.ctz.toNat :=
      toBitVec_clear set.bits (by omega)
    refine ⟨signal, rest, ?_, ?_, ?_⟩
    · rw [toList_eq, toList_eq, sort_members hzero, List.filterMap_cons_some hsome, hrest]
    · intro i hi
      rw [hrest, members_clear] at hi
      exact h i (Finset.mem_of_mem_erase hi)
    · unfold next
      simp only [hsome]
      rfl

/-- Some calls of `next`: what they return, and the iterator that they leave. -/
def nexts : Nat → SignalSetIter → List (Option Signal) × SignalSetIter
  | 0, iter => ([], iter)
  | calls + 1, iter =>
      let first := iter.next
      let rest := nexts calls first.2
      (first.1 :: rest.1, rest.2)

theorem nexts_eq {set : SignalSet} (h : set.Valid) (calls : Nat) :
    (nexts calls ⟨set⟩).1 = (List.range calls).map (fun call => set.toList[call]?)
      ∧ (nexts calls ⟨set⟩).2.set.Valid
      ∧ (nexts calls ⟨set⟩).2.set.toList = set.toList.drop calls := by
  induction calls generalizing set with
  | zero => exact ⟨rfl, h, rfl⟩
  | succ calls ih =>
      rw [nexts, List.range_succ_eq_map, List.map_cons, List.map_map]
      rcases next_cases h with ⟨hnil, hnext⟩ | ⟨signal, rest, hcons, hrest, hnext⟩
      · obtain ⟨hgiven, hvalid, hleft⟩ := ih h
        simp only [hnext]
        refine ⟨?_, hvalid, ?_⟩
        · rw [hgiven, hnil]
          rfl
        · rw [hleft, hnil, List.drop_nil, List.drop_nil]
      · obtain ⟨hgiven, hvalid, hleft⟩ := ih hrest
        simp only [hnext]
        refine ⟨?_, hvalid, ?_⟩
        · rw [hgiven, hcons]
          rfl
        · rw [hleft, hcons, List.drop_succ_cons]

theorem length_toList {set : SignalSet} (h : set.Valid) : set.toList.length = set.size := by
  rw [h.size_eq, ← toFinset_toList, List.toFinset_card_of_nodup set.nodup_toList]

/-- What the iterator of a set gives in a number of calls, and what it then says of its length. -/
structure Iterates (set : SignalSet) (calls : Nat) (given : List (Option Signal))
    (left : SignalSetIter) : Prop where
  given_eq : given = (List.range calls).map fun call => set.toList[call]?
  len_eq : left.len = set.size - calls
  sizeHint_eq : left.sizeHint = (set.size - calls, some (set.size - calls))
  count_eq : left.count = set.size - calls

theorem iterates {set : SignalSet} (h : set.Valid) (calls : Nat) :
    Iterates set calls (nexts calls set.intoIter).1 (nexts calls set.intoIter).2 := by
  obtain ⟨hgiven, hvalid, hleft⟩ := nexts_eq h calls
  have hsize : (nexts calls ⟨set⟩).2.set.size = set.size - calls := by
    rw [← length_toList hvalid, ← length_toList h, ← List.length_drop, ← hleft]
  exact ⟨hgiven, hsize, congrArg (fun n => (n, some n)) hsize, hsize⟩

end SignalSetIter

/-! ## Expressions -/

/-- The ways to build a set of signals: the constants, `Into`, and the four implementations of
`BitOr`. -/
inductive SetExpr where
  | empty
  | all
  | into (signal : Signal)
  | signalOrSignal (self rhs : Signal)
  | signalOrSet (self : Signal) (rhs : SetExpr)
  | setOrSignal (self : SetExpr) (rhs : Signal)
  | setOrSet (self rhs : SetExpr)

namespace SetExpr

open SignalSet

def eval : SetExpr → SignalSet
  | empty => SignalSet.empty
  | all => SignalSet.all
  | into signal => ofSignal signal
  | signalOrSignal self rhs => self.bitor rhs
  | signalOrSet self rhs => self.orSet rhs.eval
  | setOrSignal self rhs => self.eval.orSignal rhs
  | setOrSet self rhs => self.eval ||| rhs.eval

/-- The signals that an expression stands for. -/
def denote : SetExpr → Finset Signal
  | empty => ∅
  | all => Finset.univ
  | into signal => {signal}
  | signalOrSignal self rhs => {self, rhs}
  | signalOrSet self rhs => insert self rhs.denote
  | setOrSignal self rhs => insert rhs self.denote
  | setOrSet self rhs => self.denote ∪ rhs.denote

theorem valid_eval (expr : SetExpr) : expr.eval.Valid := by
  induction expr with
  | empty => exact valid_empty
  | all => exact valid_all
  | into signal => exact valid_ofSignal signal
  | signalOrSignal self rhs => exact (valid_ofSignal self).or (valid_ofSignal rhs)
  | signalOrSet self rhs ih => exact ih.or (valid_ofSignal self)
  | setOrSignal self rhs ih => exact ih.or (valid_ofSignal rhs)
  | setOrSet self rhs ihself ihrhs => exact ihself.or ihrhs

theorem signals_eval (expr : SetExpr) : expr.eval.signals = expr.denote := by
  induction expr with
  | empty => rfl
  | all => exact signals_all
  | into signal => exact signals_ofSignal signal
  | signalOrSignal self rhs =>
      have hor : (self.bitor rhs).signals = _ := signals_or (ofSignal self) (ofSignal rhs)
      rw [eval, hor, signals_ofSignal, signals_ofSignal, denote, Finset.insert_eq]
  | signalOrSet self rhs ih =>
      have hor : (self.orSet rhs.eval).signals = _ := signals_or rhs.eval (ofSignal self)
      rw [eval, hor, signals_ofSignal, ih, denote, Finset.insert_eq, Finset.union_comm]
  | setOrSignal self rhs ih =>
      have hor : (self.eval.orSignal rhs).signals = _ := signals_or self.eval (ofSignal rhs)
      rw [eval, hor, signals_ofSignal, ih, denote, Finset.insert_eq, Finset.union_comm]
  | setOrSet self rhs ihself ihrhs => rw [eval, signals_or, ihself, ihrhs, denote]

/-- What there is to see of a `SignalSet`, compared with a finite set of signals. -/
structure Represents (set : SignalSet) (signals : Finset Signal) : Prop where
  size_eq : set.size = signals.card
  mem_toList : ∀ signal, signal ∈ set.toList ↔ signal ∈ signals
  nodup : set.toList.Nodup
  iterates : ∀ calls, SignalSetIter.Iterates set calls
    (SignalSetIter.nexts calls set.intoIter).1 (SignalSetIter.nexts calls set.intoIter).2

/-- **Expressions over signals are finite sets.** The size of a set that is built from signals, what
its iterator gives after any number of calls, and what two sets are to each other are those of the
sets of signals that they stand for. -/
theorem represents (expr other : SetExpr) :
    Represents expr.eval expr.denote
      ∧ (expr.eval.contains other.eval = true ↔ other.denote ⊆ expr.denote)
      ∧ (expr.eval = other.eval ↔ expr.denote = other.denote) := by
  have hvalid := expr.valid_eval
  rw [← expr.signals_eval, ← other.signals_eval]
  refine ⟨⟨hvalid.size_eq, fun signal => ?_, nodup_toList _, SignalSetIter.iterates hvalid⟩, ?_, ?_⟩
  · exact SignalSet.mem_toList
  · exact other.valid_eval.contains_iff
  · exact hvalid.eq_iff other.valid_eval

end SetExpr

/-! ## Raw signals -/

/-- A raw signal is one of the three, or it is not a signal that is known. -/
theorem Signal.fromRaw_eq_some_iff {rawSignal : Int32} {signal : Signal} :
    Signal.fromRaw rawSignal = some signal ↔ rawSignal = signal.intoRaw := by
  unfold Signal.fromRaw
  constructor
  · intro h
    split at h
    · cases h
      assumption
    · split at h
      · cases h
        assumption
      · split at h
        · cases h
          assumption
        · cases h
  · rintro rfl
    cases signal <;> rfl

end Gaea
