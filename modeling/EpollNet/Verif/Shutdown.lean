import EpollNet.Verif.Dispatch
import EpollNet.Verif.Threadmgr

/-!
# A pool that is destroyed

`Threadpool_Destroy` signals once, has its joins refused since the threads are detached, and frees
the pool; no thread is told to leave its loop. It does not get that far: `thread_count` is twice the
number of threads, so that after one join for each thread it reads behind `threadmgr`, and nothing
was released before. Should the reads give joins that fail as well, which thread uses what was freed
depends on where the threads are when the queue and the locker are cleared.
-/

namespace EpollNet

open EpollNet.Basis

/-- `Threadpool_Destroy` has joined no more than so many entries. -/
def Destroyer.Within (n : Nat) : Destroyer → Prop
  | .lock | .signal => True
  | .join i => i ≤ n
  | .freeThreadmgr | .clearQueue | .clearLocker | .freePool | .done => False

instance (n : Nat) (pc : Destroyer) : Decidable (pc.Within n) :=
  match pc with
  | .lock | .signal => inferInstanceAs (Decidable True)
  | .join i => inferInstanceAs (Decidable (i ≤ n))
  | .freeThreadmgr | .clearQueue | .clearLocker | .freePool | .done =>
    inferInstanceAs (Decidable False)

/-- The thread uses nothing of the pool before its callback returns. -/
def Runner.aside : Runner → Bool
  | .call _ | .running _ | .exited => true
  | _ => false

/-- The thread does not use the queue before its callback returns. -/
def Runner.past : Runner → Bool
  | .unlock _ | .unlockAgain => true
  | pc => pc.aside

/-- The thread is inside a callback. -/
def Runner.inside : Runner → Bool
  | .running _ => true
  | _ => false

/-- The thread uses nothing that was released before its callback returns. -/
def Runner.safe (released : Released) (pc : Runner) : Bool :=
  if released.locker || released.pool then pc.aside else !released.queue || pc.past

/-- `Threadpool_Free` has cleared the queue. -/
def Destroyer.freeing : Destroyer → Bool
  | .clearLocker | .freePool | .done => true
  | _ => false

namespace Threadpool

variable {Cb Arg : Type} {s s' : Threadpool Cb Arg} {t a : Nat} {woken : Option Nat}

/-- `Threadpool_Create` returned the pool: it is new, with as many threads as were asked for. -/
def Made (s : Threadpool Cb Arg) : Prop :=
  ∃ (thread_count : BitVec 32) (input : PoolInput) (obj : ThreadpoolObj) (adders : Nat),
    threadpoolCreate thread_count input = .ok (some (true, obj)) ∧
      s = create thread_count.toNat adders

/-- No call of `Threadpool_Destroy` was undefined, and no pool thread used what was released. -/
structure Safe (s : Threadpool Cb Arg) : Prop where
  /-- `Threadpool_Destroy` was defined. -/
  defined : s.undefined = false
  /-- Nothing was misused. -/
  clean : s.misused = false

/-- The pool has no threads, or `Threadpool_Destroy` has joined no more entries than there are. -/
def Bounded (s : Threadpool Cb Arg) : Prop :=
  s.threads = [] ∨ s.destroyer.Within s.threads.length

/-- The queue is cleared only while every pool thread is past it, and the locker while every pool
thread is aside. From the clearing of the queue on no callback returns. -/
def Parted (s : Threadpool Cb Arg) : PoolLabel Cb Arg → Prop
  | .thread t => s.released.queue = true → s.threads[t]?.any Runner.inside = false
  | .destroyer _ => (s.destroyer = .clearQueue → ∀ thread ∈ s.threads, thread.past = true) ∧
      (s.destroyer = .clearLocker → ∀ thread ∈ s.threads, thread.aside = true)
  | .wake _ | .addtask .. | .adder .. => True

instance (s : Threadpool Cb Arg) (l : PoolLabel Cb Arg) : Decidable (Parted s l) :=
  match l with
  | .thread t => inferInstanceAs (Decidable
      (s.released.queue = true → s.threads[t]?.any Runner.inside = false))
  | .destroyer _ => inferInstanceAs (Decidable
      ((s.destroyer = .clearQueue → ∀ thread ∈ s.threads, thread.past = true) ∧
        (s.destroyer = .clearLocker → ∀ thread ∈ s.threads, thread.aside = true)))
  | .wake _ | .addtask .. | .adder .. => inferInstanceAs (Decidable True)

/-! ## Destruction is undefined after the last thread -/

/-- The steps of `Threadpool_Destroy`, with what they release and what is undefined of them. -/
inductive DestroyerStep (s : Threadpool Cb Arg) : Threadpool Cb Arg → Prop where
  /-- The lock is taken. -/
  | locked : s.destroyer = .lock →
      DestroyerStep s { s with locked := true, destroyer := .signal }
  /-- A thread is signalled, or none waits. -/
  | signalled {threads : List Runner} : s.destroyer = .signal →
      threads.length = s.threads.length →
      DestroyerStep s { s with threads, destroyer := .join 0 }
  /-- An entry is joined. -/
  | joined {i : Nat} : s.destroyer = .join i → i < s.thread_count →
      DestroyerStep s { s with
        undefined := s.undefined || s.joinUndefined i
        destroyer := .join (i + 1) }
  /-- The lock is given back. -/
  | unlocked {i : Nat} : s.destroyer = .join i → s.thread_count ≤ i →
      DestroyerStep s { s with locked := false, destroyer := .freeThreadmgr }
  /-- `threadmgr` is freed. -/
  | freed : s.destroyer = .freeThreadmgr → DestroyerStep s { s with destroyer := .clearQueue }
  /-- The queue is cleared. -/
  | emptied : s.destroyer = .clearQueue →
      DestroyerStep s { s with
        queue := []
        released := { s.released with queue := true }
        destroyer := .clearLocker }
  /-- The locker is cleared. -/
  | cleared : s.destroyer = .clearLocker →
      DestroyerStep s { s with
        undefined := s.undefined || s.threads.contains .blocked
        released := { s.released with locker := true }
        destroyer := .freePool }
  /-- The pool is freed. -/
  | done : s.destroyer = .freePool →
      DestroyerStep s { s with
        released := { s.released with pool := true }
        destroyer := .done }

/-- A step of `Threadpool_Destroy` is one of these. -/
theorem threadpoolDestroy_cases (stepped : s.threadpoolDestroy woken = some s') :
    DestroyerStep s s' := by
  unfold threadpoolDestroy at stepped
  cases here : s.destroyer with
  | lock =>
    simp only [here] at stepped
    split at stepped
    · cases stepped
    · cases stepped
      exact .locked here
  | signal =>
    simp only [here] at stepped
    obtain ⟨next, signalled, rfl⟩ := Option.map_eq_some_iff.mp stepped
    rcases signal_cases signalled with ⟨_, _, rfl⟩ | ⟨t, _, _, rfl⟩
    · exact .signalled here rfl
    · exact .signalled here List.length_set
  | join i =>
    simp only [here] at stepped
    split at stepped
    · rename_i more
      cases stepped
      exact .joined here more
    · rename_i last
      cases stepped
      exact .unlocked here (Nat.le_of_not_lt last)
  | freeThreadmgr =>
    simp only [here] at stepped
    cases stepped
    exact .freed here
  | clearQueue =>
    simp only [here] at stepped
    cases stepped
    exact .emptied here
  | clearLocker =>
    simp only [here] at stepped
    cases stepped
    exact .cleared here
  | freePool =>
    simp only [here] at stepped
    cases stepped
    exact .done here
  | done =>
    simp only [here] at stepped
    cases stepped

/-- What holds of a pool that was made: its count is twice the number of its threads, and
destruction stays defined, and releases nothing, just as long as it is bounded. -/
structure Doubled (s : Threadpool Cb Arg) : Prop where
  /-- The threads are few enough for an `int`. -/
  small : s.threads.length < 2 ^ 31
  /-- Each one is counted twice. -/
  count : s.thread_count = 2 * s.threads.length
  /-- Bounded destruction is defined, and the pool is not misused. -/
  bounded : s.Bounded → s.Safe
  /-- It releases nothing. -/
  whole : s.destroyer.Within s.threads.length → s.released = ⟨false, false, false⟩
  /-- Destruction that is not is undefined. -/
  beyond : ¬s.Bounded → s.undefined = true

/-- A pool that is not released is not misused. -/
theorem misuses_whole (pc : Runner) : pc.misuses ⟨false, false, false⟩ = false := by
  cases pc <;> rfl

/-- Being bounded goes by the number of threads and by where the destroyer is. -/
theorem bounded_congr (length : s'.threads.length = s.threads.length)
    (destroyer : s'.destroyer = s.destroyer) : s'.Bounded ↔ s.Bounded := by
  unfold Bounded
  rw [← List.length_eq_zero_iff, ← List.length_eq_zero_iff, length, destroyer]

/-- A step of another thread than the destroyer. -/
theorem Doubled.keep (doubled : s.Doubled) (length : s'.threads.length = s.threads.length)
    (count : s'.thread_count = s.thread_count) (destroyer : s'.destroyer = s.destroyer)
    (released : s'.released = s.released) (undefined : s'.undefined = s.undefined)
    (clean : s.Bounded → s'.misused = false) : s'.Doubled where
  small := length ▸ doubled.small
  count := by rw [count, length, doubled.count]
  bounded := by
    intro bounded
    have before := (bounded_congr length destroyer).mp bounded
    exact ⟨undefined.trans (doubled.bounded before).defined, clean before⟩
  whole := by
    rw [length, destroyer, released]
    exact doubled.whole
  beyond := by
    rw [bounded_congr length destroyer, undefined]
    exact doubled.beyond

/-- A step of the destroyer before its first undefined join. -/
theorem Doubled.before (doubled : s.Doubled) (length : s'.threads.length = s.threads.length)
    (count : s'.thread_count = s.thread_count) (within : s.destroyer.Within s.threads.length)
    (still : s'.destroyer.Within s.threads.length) (released : s'.released = s.released)
    (undefined : s'.undefined = s.undefined) (misused : s'.misused = s.misused) :
    s'.Doubled := by
  have safe := doubled.bounded (.inr within)
  have bounded : s'.Bounded := .inr (length ▸ still)
  exact
    { small := length ▸ doubled.small
      count := by rw [count, length, doubled.count]
      bounded := fun _ => ⟨undefined.trans safe.defined, misused.trans safe.clean⟩
      whole := fun _ => released.trans (doubled.whole within)
      beyond := fun unbounded => absurd bounded unbounded }

/-- A step of the destroyer after it. -/
theorem Doubled.after (doubled : s.Doubled) (threads : s'.threads = s.threads)
    (count : s'.thread_count = s.thread_count) (out : ¬s.destroyer.Within s.threads.length)
    (still : ¬s'.destroyer.Within s.threads.length) (misused : s'.misused = s.misused)
    (idle : s.threads = [] → s'.undefined = s.undefined)
    (more : s.undefined = true → s'.undefined = true) : s'.Doubled where
  small := by rw [threads]; exact doubled.small
  count := by rw [count, threads, doubled.count]
  bounded := by
    rintro (empty | within)
    · have none := threads.symm.trans empty
      have safe := doubled.bounded (.inl none)
      exact ⟨(idle none).trans safe.defined, misused.trans safe.clean⟩
    · rw [threads] at within
      exact absurd within still
  whole := by
    intro within
    rw [threads] at within
    exact absurd within still
  beyond := by
    intro unbounded
    apply more
    apply doubled.beyond
    rintro (empty | within)
    · exact unbounded (.inl (threads.trans empty))
    · exact out within

/-- Joining an entry of a thread is defined, and joining the next one is not. -/
theorem Doubled.join {i : Nat} (doubled : s.Doubled) (at_join : s.destroyer = .join i)
    (more : i < s.thread_count) : Doubled { s with
      undefined := s.undefined || s.joinUndefined i
      destroyer := .join (i + 1) } := by
  have small := doubled.small
  have count := doubled.count
  by_cases inside : i < s.threads.length
  · have fine : s.joinUndefined i = false := by
      unfold joinUndefined
      rw [Bool.or_eq_false_iff, decide_eq_false_iff_not, decide_eq_false_iff_not]
      omega
    refine doubled.before rfl rfl ?_ inside rfl ?_ rfl
    · rw [at_join]
      exact inside.le
    · rw [fine, Bool.or_false]
  · have nonempty : s.threads ≠ [] := by
      intro empty
      rw [empty, List.length_nil] at count
      omega
    have out : ¬i + 1 ≤ s.threads.length := by omega
    have bad : s.joinUndefined i = true := by
      unfold joinUndefined
      rw [Bool.or_eq_true, decide_eq_true_eq]
      exact .inl (Nat.le_of_not_lt inside)
    refine ⟨small, count, ?_, fun within => absurd within out, fun _ => ?_⟩
    · rintro (empty | within)
      · exact absurd empty nonempty
      · exact absurd within out
    · rw [bad, Bool.or_true]

/-- The destroyer keeps this. -/
theorem Doubled.destroy (doubled : s.Doubled) (moved : DestroyerStep s s') : s'.Doubled := by
  have count := doubled.count
  cases moved with
  | locked at_lock => exact doubled.before rfl rfl (by rw [at_lock]; trivial) trivial rfl rfl rfl
  | signalled at_signal length =>
    exact doubled.before length rfl (by rw [at_signal]; trivial) (Nat.zero_le _) rfl rfl rfl
  | joined at_join more => exact doubled.join at_join more
  | @unlocked i at_join last =>
    by_cases empty : s.threads = []
    · have safe := doubled.bounded (.inl empty)
      exact ⟨doubled.small, count, fun _ => ⟨safe.defined, safe.clean⟩, fun within => within.elim,
        fun unbounded => absurd (.inl empty) unbounded⟩
    · have some' : 0 < s.threads.length := List.length_pos_iff.mpr empty
      refine doubled.after rfl rfl ?_ id rfl (fun _ => rfl) id
      rw [at_join]
      show ¬i ≤ s.threads.length
      omega
  | freed here | emptied here | done here =>
    exact doubled.after rfl rfl (by rw [here]; exact id) id rfl (fun _ => rfl) id
  | cleared here =>
    refine doubled.after rfl rfl (by rw [here]; exact id) id rfl (fun empty => ?_) fun bad => ?_
    · show (s.undefined || s.threads.contains .blocked) = s.undefined
      rw [empty]
      exact Bool.or_false _
    · show (s.undefined || s.threads.contains .blocked) = true
      rw [bad, Bool.true_or]

/-- Every step keeps it. -/
theorem Doubled.step {l : PoolLabel Cb Arg} (doubled : s.Doubled) (stepped : s.step l = some s') :
    s'.Doubled := by
  have clean : s.Bounded → s.misused = false := fun bounded => (doubled.bounded bounded).clean
  cases l with
  | thread t =>
    obtain ⟨next, pc, moved, found, rfl⟩ := runnerStep_cases stepped
    obtain ⟨released, destroyer, misused, undefined, count, new, threads⟩ := moved.frame
    have length : next.threads.length = s.threads.length := by rw [threads, List.length_set]
    refine doubled.keep length count destroyer released undefined fun bounded => ?_
    have nonempty : s.threads ≠ [] := List.ne_nil_of_mem (List.mem_of_getElem? found)
    have within := bounded.resolve_left nonempty
    show (next.misused || pc.misuses s.released) = false
    rw [misused, clean bounded, doubled.whole within, misuses_whole, Bool.or_false]
  | wake t =>
    obtain ⟨_, rfl⟩ := wake_cases stepped
    exact doubled.keep List.length_set rfl rfl rfl rfl clean
  | addtask a cb arg task =>
    obtain ⟨_, _, rfl⟩ := addtaskCall_cases stepped
    exact doubled.keep rfl rfl rfl rfl rfl clean
  | adder a woken =>
    cases threadpoolAddtask_cases stepped with
    | signalled _ _ => exact doubled.keep List.length_set rfl rfl rfl rfl clean
    | locked _ _ | pushed _ | unlocked _ | unheard _ _ =>
      exact doubled.keep rfl rfl rfl rfl rfl clean
  | destroyer woken => exact doubled.destroy (threadpoolDestroy_cases stepped)

/-- Threads that were all created are few enough for an `int`. -/
theorem createLoop_small {created : Nat → Bool} {left i : Nat} {obj obj' : ThreadpoolObj}
    (index : i < 2 ^ 31) (made : createLoop created left i obj = .ok (true, obj')) :
    i + left < 2 ^ 31 := by
  induction left generalizing i obj with
  | zero => exact index
  | succ left ih =>
    rw [createLoop] at made
    split at made
    · obtain ⟨j, next, later⟩ := bind_ends made
      have succ := nextIndex_ok next
      have fits : i + 1 ≠ 2 ^ 31 := by
        intro overflow
        rw [nextIndex, if_pos overflow] at next
        cases next
      have rest := ih (by omega) later
      omega
    · cases made

/-- The pool that `Threadpool_Create` returns counts its threads twice. -/
theorem Made.doubled (made : s.Made) : s.Doubled := by
  obtain ⟨thread_count, input, obj, adders, returned, rfl⟩ := made
  have small : thread_count.toNat < 2 ^ 31 := by
    unfold threadpoolCreate at returned
    split at returned
    · obtain ⟨⟨whole, obj'⟩, looped, same⟩ := bind_ends returned
      obtain ⟨rfl, _⟩ := Prod.mk.inj (Option.some.inj (Except.ok.inj same))
      have few := createLoop_small (by decide) looped
      omega
    · cases returned
  have length : (create thread_count.toNat adders : Threadpool Cb Arg).threads.length =
      thread_count.toNat := by
    rw [create_threads, List.length_replicate]
  refine ⟨?_, ?_, fun _ => ⟨rfl, rfl⟩, fun _ => rfl, fun unbounded => ?_⟩
  · rw [length]
    exact small
  · rw [length]
    show (thread_count.toNat + thread_count.toNat) % 2 ^ 32 = 2 * thread_count.toNat
    omega
  · exact absurd (.inr trivial) unbounded

/-! ## One thread -/

/-- A thread that is safe misuses nothing. -/
theorem misuses_safe {pc : Runner} {released : Released} (safe : pc.safe released = true) :
    pc.misuses released = false := by
  obtain ⟨queue, locker, pool⟩ := released
  cases pc <;> cases queue <;> cases locker <;> cases pool <;>
    first | rfl | exact (Bool.false_ne_true safe).elim

/-- Before anything is released every thread is safe. -/
theorem safe_whole (pc : Runner) : pc.safe ⟨false, false, false⟩ = true := by
  cases pc <;> rfl

/-- A thread that is blocked is safe only before anything is released. -/
theorem released_of_blocked {released : Released} (safe : Runner.blocked.safe released = true) :
    released.queue = false := by
  obtain ⟨queue, locker, pool⟩ := released
  cases queue with
  | false => rfl
  | true => cases locker <;> cases pool <;> exact absurd safe Bool.false_ne_true

/-- A thread past the queue that moves and is not inside a callback stays past it, and one that is
aside stays aside. -/
theorem RunnerStep.stays {pc : Runner} (moved : RunnerStep s t s')
    (found : s.threads[t]? = some pc) (outside : pc.inside = false) :
    ∃ new, s'.threads = s.threads.set t new ∧ (pc.past = true → new.past = true) ∧
      (pc.aside = true → new.aside = true) := by
  have here : ∀ {old : Runner}, s.threads[t]? = some old → old = pc :=
    fun same => Option.some.inj (same.symm.trans found)
  cases moved with
  | locked at_lock _ =>
    refine ⟨_, rfl, fun past => ?_, fun aside => ?_⟩ <;> rcases at_lock with same | same
    all_goals cases here same
    all_goals contradiction
  | sizedEmpty same _ =>
    cases here same
    exact ⟨_, rfl, fun past => (Bool.false_ne_true past).elim,
      fun aside => (Bool.false_ne_true aside).elim⟩
  | sized same _ =>
    cases here same
    exact ⟨_, rfl, fun past => (Bool.false_ne_true past).elim,
      fun aside => (Bool.false_ne_true aside).elim⟩
  | poppedEmpty same _ | popped same _ =>
    cases here same
    exact ⟨_, rfl, fun _ => rfl, fun aside => (Bool.false_ne_true aside).elim⟩
  | slept same =>
    cases here same
    exact ⟨_, rfl, fun past => (Bool.false_ne_true past).elim,
      fun aside => (Bool.false_ne_true aside).elim⟩
  | unlockedEmpty same | unlocked same | unlockedAgain same =>
    cases here same
    exact ⟨_, rfl, fun _ => rfl, fun aside => (Bool.false_ne_true aside).elim⟩
  | called same _ =>
    cases here same
    exact ⟨_, rfl, fun _ => rfl, fun _ => rfl⟩
  | returned same =>
    cases here same
    cases outside

/-- A thread that is safe stays so. -/
theorem RunnerStep.safe {pc : Runner} (moved : RunnerStep s t s')
    (found : s.threads[t]? = some pc) (outside : s.released.queue = true → pc.inside = false)
    (order : s.released.queue = false → s.released = ⟨false, false, false⟩)
    (safe : pc.safe s.released = true) :
    ∃ new, s'.threads = s.threads.set t new ∧ new.safe s.released = true := by
  cases cleared : s.released.queue with
  | false =>
    obtain ⟨_, _, _, _, _, new, threads⟩ := moved.frame
    exact ⟨new, threads, order cleared ▸ safe_whole new⟩
  | true =>
    obtain ⟨new, threads, past, aside⟩ := moved.stays found (outside cleared)
    refine ⟨new, threads, ?_⟩
    rw [Runner.safe, cleared] at safe ⊢
    cases gone : (s.released.locker || s.released.pool) with
    | false =>
      rw [gone] at safe
      exact past safe
    | true =>
      rw [gone] at safe
      exact aside safe

/-! ## The invariant -/

/-- No thread has used what was released, and none will before its callback returns. -/
structure Apart (s : Threadpool Cb Arg) : Prop where
  /-- The queue is released first. -/
  order : s.released.queue = false → s.released = ⟨false, false, false⟩
  /-- The destroyer has released it. -/
  stage : s.destroyer.freeing = s.released.queue
  /-- Before the pool is freed the locker is released. -/
  locker : s.destroyer = .freePool → s.released.locker = true
  /-- Every thread is safe. -/
  safe : ∀ thread ∈ s.threads, thread.safe s.released = true
  /-- Nothing was misused. -/
  clean : s.misused = false

/-- Steps that leave what was released leave the threads apart if they are safe. -/
theorem Apart.keep (apart : s.Apart) (released : s'.released = s.released)
    (destroyer : s'.destroyer = s.destroyer)
    (safe : ∀ thread ∈ s'.threads, thread.safe s.released = true)
    (clean : s'.misused = false) : s'.Apart := by
  refine ⟨?_, ?_, ?_, ?_, clean⟩
  · rw [released]
    exact apart.order
  · rw [released, destroyer]
    exact apart.stage
  · rw [released, destroyer]
    exact apart.locker
  · rw [released]
    exact safe

/-- A pool thread stays apart. -/
theorem Apart.run (apart : s.Apart) (parted : Parted s (.thread t))
    (stepped : s.runnerStep t = some s') : s'.Apart := by
  obtain ⟨next, pc, moved, found, rfl⟩ := runnerStep_cases stepped
  obtain ⟨released, destroyer, misused, _⟩ := moved.frame
  have safe := apart.safe pc (List.mem_of_getElem? found)
  have outside : s.released.queue = true → pc.inside = false := by
    intro cleared
    simpa [found] using parted cleared
  obtain ⟨new, threads, stays⟩ := moved.safe found outside apart.order safe
  refine apart.keep released destroyer (fun thread member => ?_) ?_
  · have member' : thread ∈ s.threads.set t new := threads ▸ member
    rcases List.mem_or_eq_of_mem_set member' with old | rfl
    · exact apart.safe thread old
    · exact stays
  · show (next.misused || pc.misuses s.released) = false
    rw [misused, apart.clean, misuses_safe safe]
    rfl

/-- A thread that is woken is so before anything is released. -/
theorem Apart.wake (apart : s.Apart) (at_blocked : s.threads[t]? = some .blocked) :
    (s.setThread t .woken).Apart := by
  have early := released_of_blocked (apart.safe .blocked (List.mem_of_getElem? at_blocked))
  refine apart.keep rfl rfl (fun thread _ => ?_) apart.clean
  rw [apart.order early]
  exact safe_whole thread

/-- The destroyer releases nothing before it comes to the queue. -/
theorem Apart.before (apart : s.Apart) (before : s.destroyer.freeing = false)
    (released : s'.released = s.released) (after : s'.destroyer.freeing = false)
    (misused : s'.misused = s.misused) : s'.Apart := by
  have early : s.released.queue = false := apart.stage.symm.trans before
  have whole : s'.released = ⟨false, false, false⟩ := released.trans (apart.order early)
  refine ⟨fun _ => whole, ?_, fun freeing => ?_, fun thread _ => ?_, misused.trans apart.clean⟩
  · rw [after, whole]
  · rw [freeing] at after
    cases after
  · rw [whole]
    exact safe_whole thread

/-- The destroyer leaves the threads apart if they are past the queue and aside of the locker in
time. -/
theorem Apart.destroy (apart : s.Apart) (parted : Parted s (.destroyer woken))
    (moved : DestroyerStep s s') : s'.Apart := by
  have stage := apart.stage
  cases moved with
  | locked here | signalled here _ | joined here _ | unlocked here _ | freed here =>
    exact apart.before (by rw [here]; rfl) rfl rfl rfl
  | emptied here =>
    rw [here] at stage
    refine ⟨(fun early => by cases early), rfl, (fun freeing => by cases freeing),
      fun thread member => ?_, apart.clean⟩
    rw [apart.order stage.symm]
    exact parted.1 here thread member
  | cleared here =>
    rw [here] at stage
    refine ⟨fun early => ?_, stage, fun _ => rfl, fun thread member => ?_, apart.clean⟩
    · exact (Bool.false_ne_true (early.symm.trans stage.symm)).elim
    · exact parted.2 here thread member
  | done here =>
    rw [here] at stage
    refine ⟨fun early => ?_, stage, (fun freeing => by cases freeing), fun thread member => ?_,
      apart.clean⟩
    · exact (Bool.false_ne_true (early.symm.trans stage.symm)).elim
    · have safe := apart.safe thread member
      simp only [Runner.safe, apart.locker here, Bool.true_or, if_true] at safe ⊢
      exact safe

/-- Every step of a run whose threads part in time keeps them apart. -/
theorem Apart.step {l : PoolLabel Cb Arg} (apart : s.Apart) (parted : Parted s l)
    (stepped : s.step l = some s') : s'.Apart := by
  cases l with
  | thread t => exact apart.run parted stepped
  | wake t =>
    obtain ⟨at_blocked, rfl⟩ := wake_cases stepped
    exact apart.wake at_blocked
  | addtask a cb arg task =>
    obtain ⟨_, _, rfl⟩ := addtaskCall_cases stepped
    exact apart.keep rfl rfl apart.safe apart.clean
  | adder a woken =>
    cases threadpoolAddtask_cases stepped with
    | signalled _ at_blocked =>
      have woken := apart.wake at_blocked
      exact woken.keep rfl rfl woken.safe woken.clean
    | locked _ _ | pushed _ | unlocked _ | unheard _ _ =>
      exact apart.keep rfl rfl apart.safe apart.clean
  | destroyer woken => exact apart.destroy parted (threadpoolDestroy_cases stepped)

/-! ## Runs -/

/-- In every run of a pool that was made, destruction is defined and the pool not misused just as
long as the pool has no threads or no more entries were joined than there are. And in every run in
which the queue is cleared only while every pool thread is past it and the locker only while every
pool thread is aside, and in which then no callback returns, no pool thread uses what was released,
even where the joins behind `threadmgr` do no more than fail. -/
theorem shutdown_safe :
    (∀ s : Threadpool Cb Arg, Reach step (fun _ _ => True) Made s → (s.Safe ↔ s.Bounded)) ∧
    ∀ s : Threadpool Cb Arg, Reach step Parted Started s → s.misused = false := by
  constructor
  · intro s reached
    have doubled : s.Doubled := by
      apply reached.invariant
      · exact fun _ made => made.doubled
      · exact fun _ _ _ doubled _ stepped => doubled.step stepped
    refine ⟨fun safe => ?_, doubled.bounded⟩
    by_contra unbounded
    exact Bool.false_ne_true (safe.defined.symm.trans (doubled.beyond unbounded))
  · intro s reached
    have apart : s.Apart := by
      apply reached.invariant
      · rintro _ ⟨thread_count, adders, rfl⟩
        exact ⟨fun _ => rfl, rfl, (fun freeing => by cases freeing),
          fun thread _ => safe_whole thread, rfl⟩
      · exact fun _ _ _ apart parted stepped => apart.step parted stepped
    exact apart.clean

namespace Sample

/-- `Threadpool_Destroy` up to its unlock, with `n` joins. -/
def destroying (n : Nat) (woken : Option Nat) : List (PoolLabel Nat Nat) :=
  [.destroyer none, .destroyer woken] ++ List.replicate (n + 1) (.destroyer none)

/-- `Threadpool_Free`. -/
def freeing : List (PoolLabel Nat Nat) := List.replicate 4 (.destroyer none)

/-- `Threadpool_Create` makes a pool. -/
theorem made (thread_count : BitVec 32) (adders : Nat) (obj : ThreadpoolObj)
    (returned : threadpoolCreate thread_count ⟨true, true, fun _ => true⟩ =
      .ok (some (true, obj))) :
    (create thread_count.toNat adders : Threadpool Nat Nat).Made :=
  ⟨thread_count, _, obj, adders, returned, rfl⟩

end Sample

/-- One thread of two is inside a callback and the other is woken by the destroyer, which joins both
entries: that is defined. A pool whose only thread is inside a callback is freed, and not used. -/
theorem shutdown_safe_busy :
    (∃ s : Threadpool Nat Nat, s.Safe ∧ s.threads = [.running 7, .woken] ∧
      s.destroyer = .join 2) ∧
    ∃ s : Threadpool Nat Nat, s.misused = false ∧ s.threads = [.running 7] ∧
      s.destroyer = .done := by
  have joined : (runAllowed step (fun _ _ => True) (create 2 1) (Sample.adding 7 ++
      [.adder 0 none, .thread 0, .thread 0, .thread 0, .thread 0, .thread 0] ++
        Sample.waiting 1 ++ Sample.destroying 1 (some 1))).map (fun s =>
            s.threads == [.running 7, .woken] && s.destroyer == .join 2) = some true := by
    decide +kernel
  have freed : (runAllowed step Parted (create 1 1) (Sample.adding 7 ++
      [.adder 0 none, .thread 0, .thread 0, .thread 0, .thread 0, .thread 0] ++
        Sample.destroying 2 none ++ Sample.freeing)).map (fun s =>
            s.threads == [.running 7] && s.destroyer == .done) = some true := by
    decide +kernel
  obtain ⟨s, reached, passed⟩ := Reach.exists_of_run (Sample.made 2 1 _ rfl) joined
  obtain ⟨t, reached', passed'⟩ := Reach.exists_of_run (create_started 1 1) freed
  simp only [Bool.and_eq_true, beq_iff_eq] at passed passed'
  have bounded : s.Bounded := by
    refine .inr ?_
    rw [passed.1, passed.2]
    exact le_refl 2
  exact ⟨⟨s, (shutdown_safe.1 s reached).mpr bounded, passed⟩,
    ⟨t, shutdown_safe.2 t reached', passed'⟩⟩

/-- The only thread of a pool waits; the destroyer wakes it and joins one entry more than there is.
Where that join only fails, the pool is freed and the thread takes the lock that was freed. -/
theorem shutdown_unsafe :
    (¬∀ s : Threadpool Nat Nat, Reach step (fun _ _ => True) Made s → s.Safe) ∧
    (¬∀ s : Threadpool Nat Nat, Reach step (fun _ _ => True) Made s → s.undefined = false) ∧
    ¬∀ s : Threadpool Nat Nat, Reach step (fun _ _ => True) Made s → s.misused = false := by
  have completed : (runAllowed step (fun _ _ => True) (create 1 0) (Sample.waiting 0 ++
      Sample.destroying 2 (some 0) ++ Sample.freeing ++ [.thread 0])).map
        (fun s : Threadpool Nat Nat => s.undefined && s.misused) = some true := by
    decide +kernel
  obtain ⟨s, reached, passed⟩ := Reach.exists_of_run (Sample.made 1 0 _ rfl) completed
  obtain ⟨undefined, misused⟩ := (Bool.and_eq_true _ _).mp passed
  refine ⟨fun safe => ?_, fun defined => ?_, fun clean => ?_⟩
  · exact Bool.false_ne_true ((safe s reached).defined.symm.trans undefined)
  · exact Bool.false_ne_true ((defined s reached).symm.trans undefined)
  · exact Bool.false_ne_true ((clean s reached).symm.trans misused)

end Threadpool

end EpollNet
