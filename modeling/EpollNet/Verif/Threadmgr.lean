import EpollNet.Basis.Calls
import EpollNet.Net.Threadmgr
import Mathlib.Tactic.Common

/-!
# Threads that are counted twice

Since `thread_count` starts at the number of threads asked for and grows with every thread created,
it is the number created at no time. `Threadpool_Destroy` joins entries that hold no thread, or goes
outside of the array, or misses threads when the count has come round.
-/

namespace EpollNet

open EpollNet.Basis

/-! ## What is demanded -/

/-- How many threads are created: those before the first that fails. -/
def threadsCreated (created : Nat → Bool) (thread_count : Nat) : Nat :=
  ((List.range thread_count).takeWhile created).length

/-- With its memory granted, creation leaves a count of the threads created, and destruction joins
the entries that hold one. -/
def Bookkept (thread_count : BitVec 32) (input : PoolInput) : Prop :=
  input.pool = true → input.threadmgr = true →
  ∃ whole obj, threadpoolCreate thread_count input = .ok (some (whole, obj)) ∧
    obj.thread_count.toNat = threadsCreated input.created thread_count.toNat ∧
    obj.threadpoolDestroy = .ok (obj.threadmgr.filter Option.isSome)

/-! ## Creation -/

/-- An index that does not overflow is the next one. -/
theorem nextIndex_ok {i j : Nat} (next : nextIndex i = .ok j) : j = i + 1 := by
  unfold nextIndex at next
  split at next
  · cases next
  · exact (Except.ok.inj next).symm

/-- A pool with its first threads created. -/
def ThreadpoolObj.filled (thread_count : BitVec 32) (created : Nat) : ThreadpoolObj where
  threadmgr := (List.range created).map some ++ List.replicate (thread_count.toNat - created) none
  thread_count := thread_count + BitVec.ofNat 32 created

/-- The entries that hold a thread are the first ones. -/
theorem filled_filter (thread_count : BitVec 32) (created : Nat) :
    (ThreadpoolObj.filled thread_count created).threadmgr.filter Option.isSome =
      (List.range created).map some := by
  unfold ThreadpoolObj.filled
  have left : ((List.range created).map some).filter Option.isSome =
      (List.range created).map some := by
    rw [List.filter_eq_self]
    intro thread member
    obtain ⟨i, _, rfl⟩ := List.mem_map.mp member
    rfl
  have right : (List.replicate (thread_count.toNat - created) (none : Option Nat)).filter
      Option.isSome = [] := by
    rw [List.filter_eq_nil_iff]
    intro thread member
    rw [List.eq_of_mem_replicate member]
    exact Bool.false_ne_true
  rw [List.filter_append, left, right, List.append_nil]

/-- Creating one more thread. -/
theorem filled_succ {thread_count : BitVec 32} {i : Nat} (more : i < thread_count.toNat) :
    (⟨(ThreadpoolObj.filled thread_count i).threadmgr.set i (some i),
      (ThreadpoolObj.filled thread_count i).thread_count + 1⟩ : ThreadpoolObj) =
        .filled thread_count (i + 1) := by
  have entries : thread_count.toNat - i = thread_count.toNat - (i + 1) + 1 := by omega
  have length : ((List.range i).map some).length = i := by
    rw [List.length_map, List.length_range]
  unfold ThreadpoolObj.filled
  congr 1
  · rw [List.set_append_right _ _ (le_of_eq length), length, Nat.sub_self, entries,
      List.replicate_succ, List.set_cons_zero, List.range_succ, List.map_append, List.map_singleton,
      List.append_assoc, List.singleton_append]
  · rw [BitVec.add_assoc]
    exact congrArg _ (BitVec.ofNat_add i 1).symm

/-- The loop stops at the first creation that fails. -/
theorem createLoop_filled {created : Nat → Bool} {thread_count : BitVec 32} {left i : Nat}
    {whole : Bool} {obj : ThreadpoolObj} (all : i + left = thread_count.toNat)
    (ended : createLoop created left i (.filled thread_count i) = .ok (whole, obj)) :
    obj = .filled thread_count (i + ((List.range' i left).takeWhile created).length) := by
  induction left generalizing i with
  | zero =>
    obtain ⟨_, rfl⟩ := Prod.mk.inj (Except.ok.inj ended)
    rfl
  | succ left ih =>
    rw [createLoop] at ended
    rw [List.range'_succ]
    by_cases made : created i = true
    · rw [if_pos made, filled_succ (by omega)] at ended
      obtain ⟨j, next, later⟩ := bind_ends ended
      obtain rfl := nextIndex_ok next
      rw [List.takeWhile_cons_of_pos made, List.length_cons]
      have rest := ih (by omega) later
      rw [rest]
      congr 1
      omega
    · rw [if_neg made] at ended
      obtain ⟨_, rfl⟩ := Prod.mk.inj (Except.ok.inj ended)
      rw [List.takeWhile_cons_of_neg made]
      rfl

/-- A pool that creation ends with has the threads created in its first entries, and counts them on
top of the number asked for. -/
theorem threadpoolCreate_filled {thread_count : BitVec 32} {input : PoolInput} {whole : Bool}
    {obj : ThreadpoolObj} (made : threadpoolCreate thread_count input = .ok (some (whole, obj))) :
    obj = .filled thread_count (threadsCreated input.created thread_count.toNat) := by
  unfold threadpoolCreate at made
  split at made
  next granted =>
    obtain ⟨result, looped, same⟩ := bind_ends made
    obtain rfl := Option.some.inj (Except.ok.inj same)
    have start : (⟨List.replicate thread_count.toNat none, thread_count⟩ : ThreadpoolObj) =
        .filled thread_count 0 := by
      simp [ThreadpoolObj.filled]
    rw [start] at looped
    rw [createLoop_filled (Nat.zero_add _) looped, Nat.zero_add, threadsCreated,
      List.range_eq_range']
  next refused => cases made

/-- No more threads are created than asked for. -/
theorem threadsCreated_le (created : Nat → Bool) (thread_count : Nat) :
    threadsCreated created thread_count ≤ thread_count := by
  have short := (List.takeWhile_sublist created (l := List.range thread_count)).length_le
  rwa [List.length_range] at short

/-- The count is not the number of threads created. -/
theorem filled_count {thread_count : BitVec 32} (positive : 0 < thread_count) (created : Nat) :
    (ThreadpoolObj.filled thread_count created).thread_count.toNat ≠ created := by
  have nonzero : 0 < thread_count.toNat := positive
  have bound := thread_count.isLt
  unfold ThreadpoolObj.filled
  rw [BitVec.toNat_add, BitVec.toNat_ofNat]
  omega

/-! ## Destruction -/

variable {threadmgr : List (Option Nat)}

/-- As many entries are joined as there are rounds. -/
theorem joinLoop_length {left i : Nat} {joined : List (Option Nat)}
    (ended : joinLoop threadmgr left i = .ok joined) : joined.length = left := by
  induction left generalizing i joined with
  | zero =>
    obtain rfl := Except.ok.inj ended
    rfl
  | succ left ih =>
    rw [joinLoop] at ended
    split at ended
    next missing => cases ended
    next thread found =>
      obtain ⟨j, _, later⟩ := bind_ends ended
      obtain ⟨rest, looped, same⟩ := bind_ends later
      obtain rfl := Except.ok.inj same
      rw [List.length_cons, ih looped]

/-- More rounds than there are entries go outside of the array. -/
theorem joinLoop_outside {left i : Nat} (inside : i ≤ threadmgr.length)
    (many : threadmgr.length < i + left) (small : threadmgr.length < 2 ^ 31) :
    joinLoop threadmgr left i = .error .outside := by
  induction left generalizing i with
  | zero => omega
  | succ left ih =>
    rw [joinLoop]
    rcases Nat.eq_or_lt_of_le inside with last | more
    · rw [List.getElem?_eq_none (le_of_eq last.symm)]
    · have small' : ¬i + 1 = 2 ^ 31 := by omega
      rw [List.getElem?_eq_getElem more, nextIndex, if_neg small']
      show (joinLoop threadmgr left (i + 1) >>= _) = _
      rw [ih more (by omega)]
      rfl

/-- A pool that was created is destroyed with accesses outside of its array if it has a thread and
its counts do not come round. -/
theorem destroy_outside {thread_count : BitVec 32} {input : PoolInput} {whole : Bool}
    {obj : ThreadpoolObj} (made : threadpoolCreate thread_count input = .ok (some (whole, obj)))
    (some' : 0 < threadsCreated input.created thread_count.toNat)
    (small : thread_count.toNat < 2 ^ 31) : obj.threadpoolDestroy = .error .outside := by
  have few := threadsCreated_le input.created thread_count.toNat
  rw [threadpoolCreate_filled made]
  generalize threadsCreated input.created thread_count.toNat = created at some' few
  have length : (ThreadpoolObj.filled thread_count created).threadmgr.length =
      thread_count.toNat := by
    simp [ThreadpoolObj.filled, few]
  have count : (ThreadpoolObj.filled thread_count created).thread_count.toNat =
      thread_count.toNat + created := by
    unfold ThreadpoolObj.filled
    rw [BitVec.toNat_add, BitVec.toNat_ofNat]
    omega
  apply joinLoop_outside (Nat.zero_le _)
  · rw [length, count]
    omega
  · rwa [length]

/-- The pool whose threads are all created is the one the machine of its threads starts with. -/
theorem filled_create {Cb Arg : Type} (thread_count : BitVec 32) (adders : Nat) :
    (ThreadpoolObj.filled thread_count thread_count.toNat).thread_count.toNat =
        (Threadpool.create thread_count.toNat adders : Threadpool Cb Arg).thread_count ∧
      (ThreadpoolObj.filled thread_count thread_count.toNat).threadmgr.length =
        (Threadpool.create thread_count.toNat adders : Threadpool Cb Arg).threads.length := by
  constructor
  · unfold ThreadpoolObj.filled Threadpool.create
    rw [BitVec.toNat_add, BitVec.toNat_ofNat, Nat.mod_eq_of_lt thread_count.isLt]
  · rw [Threadpool.create_threads]
    simp [ThreadpoolObj.filled]

/-! ## From creation to destruction -/

/-- For every number of threads asked for and every pattern of creations: the count is not the
number of threads created, and destruction does not join the entries that hold one. -/
theorem never_bookkept {thread_count : BitVec 32} (positive : 0 < thread_count)
    {input : PoolInput} (pool : input.pool = true) (threadmgr : input.threadmgr = true) :
    (∀ whole obj, threadpoolCreate thread_count input = .ok (some (whole, obj)) →
      obj.thread_count.toNat ≠ threadsCreated input.created thread_count.toNat ∧
      obj.threadpoolDestroy ≠ .ok (obj.threadmgr.filter Option.isSome)) ∧
    ¬Bookkept thread_count input := by
  have both : ∀ whole obj, threadpoolCreate thread_count input = .ok (some (whole, obj)) →
      obj.thread_count.toNat ≠ threadsCreated input.created thread_count.toNat ∧
      obj.threadpoolDestroy ≠ .ok (obj.threadmgr.filter Option.isSome) := by
    intro whole obj made
    rw [threadpoolCreate_filled made]
    generalize threadsCreated input.created thread_count.toNat = created
    have differs := filled_count positive created
    refine ⟨differs, fun joined => differs ?_⟩
    have length := joinLoop_length joined
    rw [filled_filter, List.length_map, List.length_range] at length
    exact length.symm
  refine ⟨both, ?_⟩
  intro bookkept
  obtain ⟨whole, obj, made, count, _⟩ := bookkept pool threadmgr
  exact (both whole obj made).1 count

/-- One thread is asked for and created. -/
theorem never_bookkept_one :
    0 < (1 : BitVec 32) ∧ ¬Bookkept 1 ⟨true, true, fun _ => true⟩ :=
  ⟨by decide,
    (never_bookkept (by decide) rfl rfl).2⟩

/-- It is counted twice. -/
theorem counted_twice : ¬∀ (thread_count : BitVec 32) (input : PoolInput), 0 < thread_count →
    Bookkept thread_count input := by
  intro always
  obtain ⟨whole, obj, made, count, _⟩ := always 1 ⟨true, true, fun _ => true⟩ (by decide) rfl rfl
  have whole' : threadpoolCreate 1 ⟨true, true, fun _ => true⟩ =
      .ok (some (true, ⟨[some 0], 2⟩)) := rfl
  rw [whole'] at made
  obtain ⟨_, rfl⟩ := Prod.mk.inj (Option.some.inj (Except.ok.inj made))
  exact absurd count (by decide)

end EpollNet
