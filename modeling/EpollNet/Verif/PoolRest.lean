import EpollNet.Basis.Descent
import EpollNet.Verif.Shutdown

/-!
# A pool comes to rest

Left to themselves the threads of a pool and the threads that add tasks to it can take only so many
steps, and none of them is ever stuck with the lock. Where nothing is left but callbacks to return,
the lock is free, every task that was pushed is with a callback or queued, and a task is queued only
while every thread is inside a callback. A pool whose callbacks never return, as those the server
gives its pools, then runs the first tasks it was given, one on each thread.
-/

namespace EpollNet

open EpollNet.Basis

/-! ## What is left to do -/

/-- Steps of a pool thread until it blocks. -/
def Runner.toDo : Runner → Nat
  | .unlock (some _) => 8
  | .call _ => 7
  | .running _ => 6
  | .lock | .woken => 5
  | .size => 4
  | .pop => 3
  | .unlock none => 2
  | .cwait | .unlockAgain => 1
  | .blocked | .exited => 0

/-- Steps of an adder until it returns, its task and the thread it wakes counted. -/
def Adder.toDo : Adder → Nat
  | .lock _ => 15
  | .push _ => 14
  | .unlock => 7
  | .signal => 6
  | .idle => 0

namespace Threadpool

variable {Cb Arg : Type} {s s' : Threadpool Cb Arg} {t a : Nat} {woken : Option Nat}

/-- A step of a pool thread or of an adder. Calls of `Threadpool_Addtask` and spurious wake-ups
come from elsewhere. -/
def Inner (_ : Threadpool Cb Arg) : PoolLabel Cb Arg → Prop
  | .thread _ | .adder .. => True
  | .wake _ | .addtask .. | .destroyer _ => False

instance (s : Threadpool Cb Arg) (l : PoolLabel Cb Arg) : Decidable (Inner s l) :=
  match l with
  | .thread _ | .adder .. => inferInstanceAs (Decidable True)
  | .wake _ | .addtask .. | .destroyer _ => inferInstanceAs (Decidable False)

/-- Everything left to do. -/
def toDo (s : Threadpool Cb Arg) : Nat :=
  6 * s.queue.length + (s.threads.map Runner.toDo).sum + (s.adders.map Adder.toDo).sum

/-- A pool thread that moves, with the tasks in the queue accounted for. -/
theorem toDo_turn {old new : Runner} (found : s.threads[t]? = some old)
    (threads : s'.threads = s.threads.set t new) (adders : s'.adders = s.adders)
    (less : 6 * s'.queue.length + new.toDo < 6 * s.queue.length + old.toDo) :
    s'.toDo < s.toDo := by
  have moved := Crew.sum_set found new Runner.toDo
  rw [toDo, toDo, adders, threads]
  omega

/-- An adder that moves. -/
theorem toDo_add {old new : Adder} (found : s.adders[a]? = some old)
    (adders : s'.adders = s.adders.set a new)
    (less : 6 * s'.queue.length + (s'.threads.map Runner.toDo).sum + new.toDo <
      6 * s.queue.length + (s.threads.map Runner.toDo).sum + old.toDo) : s'.toDo < s.toDo := by
  have moved := Crew.sum_set found new Adder.toDo
  rw [toDo, toDo, adders]
  omega

/-- A pool thread's step costs. -/
theorem toDo_run (moved : RunnerStep s t s') : s'.toDo < s.toDo := by
  have less : ∀ {j k : Nat}, j < k → 6 * s.queue.length + j < 6 * s.queue.length + k :=
    fun less => Nat.add_lt_add_left less _
  cases moved with
  | locked at_lock _ =>
    rcases at_lock with found | found
    · exact toDo_turn found rfl rfl (less (by decide))
    · exact toDo_turn found rfl rfl (less (by decide))
  | sizedEmpty found _ => exact toDo_turn found rfl rfl (less (by decide))
  | sized found _ => exact toDo_turn found rfl rfl (less (by decide))
  | slept found => exact toDo_turn found rfl rfl (less (by decide))
  | poppedEmpty found _ => exact toDo_turn found rfl rfl (less (by decide))
  | @popped task rest found queue =>
    have shorter : 6 * rest.length + 8 < 6 * s.queue.length + 3 := by
      rw [queue, List.length_cons]
      omega
    exact toDo_turn found rfl rfl shorter
  | unlockedEmpty found => exact toDo_turn found rfl rfl (less (by decide))
  | unlocked found => exact toDo_turn found rfl rfl (less (show 7 < 8 by decide))
  | unlockedAgain found => exact toDo_turn found rfl rfl (less (by decide))
  | called found _ => exact toDo_turn found rfl rfl (less (show 6 < 7 by decide))
  | returned found => exact toDo_turn found rfl rfl (less (show 5 < 6 by decide))

/-- An adder's step costs. -/
theorem toDo_addtask (moved : AdderStep s a woken s') : s'.toDo < s.toDo := by
  cases moved with
  | locked found _ => exact toDo_add found rfl (Nat.add_lt_add_left (show 14 < 15 by decide) _)
  | @pushed task woken found =>
    apply toDo_add found rfl
    show 6 * (s.queue ++ [task]).length + (s.threads.map Runner.toDo).sum + 7 <
      6 * s.queue.length + (s.threads.map Runner.toDo).sum + 14
    rw [List.length_append, List.length_singleton]
    omega
  | unlocked found => exact toDo_add found rfl (Nat.add_lt_add_left (show 6 < 7 by decide) _)
  | @signalled t found at_blocked =>
    apply toDo_add found rfl
    have roused := Crew.sum_set at_blocked .woken Runner.toDo
    show 6 * s.queue.length + ((s.threads.set t .woken).map Runner.toDo).sum + 0 <
      6 * s.queue.length + (s.threads.map Runner.toDo).sum + 6
    have awake : Runner.woken.toDo = 5 := rfl
    omega
  | unheard found _ => exact toDo_add found rfl (Nat.add_lt_add_left (show 0 < 6 by decide) _)

/-- Every step of the pool's threads and of the adders costs. -/
theorem toDo_descends : Descends (@step Cb Arg) Inner toDo := by
  intro s l s' inner stepped
  cases l with
  | thread t =>
    obtain ⟨next, pc, moved, _, rfl⟩ := runnerStep_cases stepped
    show next.toDo < s.toDo
    exact toDo_run moved
  | adder a woken => exact toDo_addtask (threadpoolAddtask_cases stepped)
  | wake t => exact inner.elim
  | addtask a cb arg task => exact inner.elim
  | destroyer woken => exact inner.elim

/-! ## Rest -/

variable {Cb Arg : Type} {s s' : Threadpool Cb Arg} {t a : Nat} {woken : Option Nat}

/-- A callback returns. -/
def Returns (s : Threadpool Cb Arg) : PoolLabel Cb Arg → Prop
  | .thread t => s.threads[t]?.any Runner.inside = true
  | .wake _ | .addtask .. | .adder .. | .destroyer _ => False

instance (s : Threadpool Cb Arg) (l : PoolLabel Cb Arg) : Decidable (Returns s l) :=
  match l with
  | .thread t => inferInstanceAs (Decidable (s.threads[t]?.any Runner.inside = true))
  | .wake _ | .addtask .. | .adder .. | .destroyer _ => inferInstanceAs (Decidable False)

/-- A step of the pool's threads or of an adder that is no return of a callback. -/
def Busy (s : Threadpool Cb Arg) (l : PoolLabel Cb Arg) : Prop := Inner s l ∧ ¬Returns s l

instance (s : Threadpool Cb Arg) (l : PoolLabel Cb Arg) : Decidable (Busy s l) :=
  inferInstanceAs (Decidable (Inner s l ∧ ¬Returns s l))

/-- What a pool thread that has nothing but a return left to do is waiting for. -/
theorem runner_of_resting {pc : Runner} (resting : Resting step Busy s)
    (found : s.threads[t]? = some pc) :
    pc = .blocked ∨ pc.inside = true ∨ pc = .exited ∨
      (pc.holds = false ∧ s.locked = true) ∨ ∃ task, pc = .call task ∧ s.tasks task = none := by
  by_cases inside : pc.inside = true
  · exact .inr (.inl inside)
  have kept : ¬s.Returns (.thread t) := by
    show ¬s.threads[t]?.any Runner.inside = true
    rw [found]
    exact inside
  have stuck : s.threadpoolRun t = none :=
    Option.map_eq_none_iff.mp (resting (.thread t) ⟨trivial, kept⟩)
  unfold threadpoolRun at stuck
  rw [found] at stuck
  cases pc with
  | blocked => exact .inl rfl
  | exited => exact .inr (.inr (.inl rfl))
  | running task => exact absurd rfl inside
  | lock =>
    simp only at stuck
    split at stuck
    · rename_i locked
      exact .inr (.inr (.inr (.inl ⟨rfl, locked⟩)))
    · contradiction
  | woken =>
    simp only at stuck
    split at stuck
    · rename_i locked
      exact .inr (.inr (.inr (.inl ⟨rfl, locked⟩)))
    · contradiction
  | size =>
    simp only at stuck
    split at stuck <;> contradiction
  | pop =>
    simp only at stuck
    split at stuck <;> contradiction
  | call task => exact .inr (.inr (.inr (.inr ⟨task, rfl, Option.map_eq_none_iff.mp stuck⟩)))
  | cwait => contradiction
  | unlock task => cases task <;> contradiction
  | unlockAgain => contradiction

/-- An adder that has nothing left to do is outside, or waits for the lock. -/
theorem adder_of_resting {pc : Adder} (resting : Resting step Busy s)
    (found : s.adders[a]? = some pc) : pc = .idle ∨ pc.holds = false ∧ s.locked = true := by
  have stuck : ∀ woken, s.threadpoolAddtask a woken = none :=
    fun woken => resting (.adder a woken) ⟨trivial, id⟩
  unfold threadpoolAddtask at stuck
  rw [found] at stuck
  cases pc with
  | idle => exact .inl rfl
  | lock task =>
    have stuck := stuck none
    simp only at stuck
    split at stuck
    · rename_i locked
      exact .inr ⟨rfl, locked⟩
    · contradiction
  | push task => exact absurd (stuck none) nofun
  | unlock => exact absurd (stuck none) nofun
  | signal =>
    by_cases somebody : .blocked ∈ s.threads
    · obtain ⟨t, at_blocked⟩ := List.mem_iff_getElem?.mp somebody
      have stuck := stuck (some t)
      simp [signal, at_blocked] at stuck
    · have stuck := stuck none
      simp [signal, somebody] at stuck

/-- At rest nobody has the lock: who has it can go on. -/
theorem unlocked_of_resting (guarded : s.Guarded) (resting : Resting step Busy s) :
    s.locked = false := by
  have noThread : s.threads.countP Runner.holds = 0 := by
    apply List.countP_eq_zero.mpr
    intro pc member held
    obtain ⟨t, found⟩ := List.mem_iff_getElem?.mp member
    rcases runner_of_resting resting found with rfl | inside | rfl | ⟨free, _⟩ | ⟨task, rfl, _⟩
    · contradiction
    · cases pc <;> contradiction
    · contradiction
    · rw [free] at held
      contradiction
    · contradiction
  have noAdder : s.adders.countP Adder.holds = 0 := by
    apply List.countP_eq_zero.mpr
    intro pc member held
    obtain ⟨a, found⟩ := List.mem_iff_getElem?.mp member
    rcases adder_of_resting resting found with rfl | ⟨free, _⟩
    · contradiction
    · rw [free] at held
      contradiction
  have mutex := guarded.mutex
  rw [noThread, noAdder] at mutex
  cases locked : s.locked with
  | false => rfl
  | true =>
    rw [locked] at mutex
    exact absurd mutex (by decide)

/-- Where every thread waits or is inside a callback and no task is being added, nothing but returns
is left. -/
theorem resting_of_idle (threads : ∀ thread ∈ s.threads, thread = .blocked ∨ thread.inside = true)
    (adders : ∀ adder ∈ s.adders, adder = .idle) : Resting step Busy s := by
  intro l busy
  cases l with
  | wake t => exact busy.1.elim
  | addtask a cb arg task => exact busy.1.elim
  | destroyer woken => exact busy.1.elim
  | adder a woken =>
    show s.threadpoolAddtask a woken = none
    unfold threadpoolAddtask
    cases found : s.adders[a]? with
    | none => rfl
    | some adder =>
      rw [adders adder (List.mem_of_getElem? found)]
  | thread t =>
    have kept : ¬s.threads[t]?.any Runner.inside = true := busy.2
    show s.runnerStep t = none
    apply Option.map_eq_none_iff.mpr
    unfold threadpoolRun
    cases found : s.threads[t]? with
    | none => rfl
    | some thread =>
      rcases threads thread (List.mem_of_getElem? found) with rfl | inside
      · rfl
      · rw [found] at kept
        exact absurd inside kept

/-- Nothing but returns of callbacks is left, and no thread could do more. -/
structure Occupied (s : Threadpool Cb Arg) : Prop where
  /-- Nobody has the lock. -/
  unlocked : s.locked = false
  /-- Every `Threadpool_Addtask` has returned. -/
  adders : ∀ adder ∈ s.adders, adder = .idle
  /-- Every thread waits in `cwait` or is inside a callback. -/
  threads : ∀ thread ∈ s.threads, thread = .blocked ∨ thread.inside = true
  /-- While a task is queued no thread waits. -/
  conserving : s.queue ≠ [] → ∀ thread ∈ s.threads, thread.inside = true
  /-- The tasks called are those pushed first; the others are queued in order. -/
  called : ∃ first, s.pushed = first ++ s.queue ∧ (s.called.map Invocation.task).Perm first

/-- At rest a safe pool is occupied. -/
theorem occupied_of_resting (guarded : s.Guarded) (wakeful : s.Wakeful) (tracked : s.Tracked)
    (resting : Resting step Busy s) : s.Occupied := by
  have unlocked := unlocked_of_resting guarded resting
  have adders : ∀ adder ∈ s.adders, adder = .idle := by
    intro pc member
    obtain ⟨a, found⟩ := List.mem_iff_getElem?.mp member
    rcases adder_of_resting resting found with idle | ⟨_, locked⟩
    · exact idle
    · rw [unlocked] at locked
      contradiction
  have threads : ∀ thread ∈ s.threads, thread = .blocked ∨ thread.inside = true := by
    intro pc member
    obtain ⟨t, found⟩ := List.mem_iff_getElem?.mp member
    rcases runner_of_resting resting found with blocked | inside | rfl | ⟨_, locked⟩ |
      ⟨task, rfl, unknown⟩
    · exact .inl blocked
    · exact .inr inside
    · exact (guarded.absurd found rfl).elim
    · rw [unlocked] at locked
      contradiction
    · -- A thread about to call has popped a task that was pushed, and those are allocated.
      have popped := tracked.hands t _ task found rfl
      have pushed : task ∈ s.pushed := by
        rw [tracked.fifo]
        exact List.mem_append_left _ (List.mem_map_of_mem (f := Prod.snd) popped)
      have known := tracked.allocated task (List.mem_append_right _ pushed)
      rw [unknown] at known
      contradiction
  refine ⟨unlocked, adders, threads, fun queued pc member => ?_, ?_⟩
  · rcases threads pc member with rfl | inside
    · have quiet : ∀ adder ∈ s.adders, adder.pending = false := by
        intro adder there
        rw [adders adder there]
        rfl
      have settled : ∀ thread ∈ s.threads, thread.coming = false := by
        intro thread there
        rcases threads thread there with rfl | inside
        · rfl
        · cases thread <;> first | rfl | contradiction
      exact absurd (wakeful.told quiet settled member) queued
    · exact inside
  · refine ⟨s.popped.map Prod.snd, tracked.fifo, ?_⟩
    have hands : s.threads.filterMap Runner.task = [] := by
      apply List.filterMap_eq_nil_iff.mpr
      intro pc member
      rcases threads pc member with rfl | inside
      · rfl
      · cases pc <;> first | rfl | contradiction
    have calls := tracked.calls
    rw [hands, List.nil_append] at calls
    exact calls.symm

/-- What holds in every run in which the pool stands and its tasks do not overflow. -/
theorem sound_of_roomy (reached : Reach step Roomy Started s) :
    s.Guarded ∧ s.Wakeful ∧ s.Tracked := by
  apply reached.invariant
  · exact fun s started => started.sound
  · intro s l s' sound roomy stepped
    have standing := roomy.standing
    exact ⟨sound.1.step standing stepped, sound.2.1.step sound.1 roomy stepped,
      sound.2.2.step standing stepped⟩

/-- The pool stands, its tasks do not overflow and no callback returns. -/
def Lasting (s : Threadpool Cb Arg) (l : PoolLabel Cb Arg) : Prop := Roomy s l ∧ ¬Returns s l

instance (s : Threadpool Cb Arg) (l : PoolLabel Cb Arg) : Decidable (Lasting s l) :=
  inferInstanceAs (Decidable (Roomy s l ∧ ¬Returns s l))

/-- Every call made is still running, and nothing else is. -/
structure Engaged (s : Threadpool Cb Arg) : Prop where
  /-- Who called a task is inside it. -/
  running : ∀ call ∈ s.called, s.threads[call.thread]? = some (.running call.task)
  /-- There are as many threads inside callbacks as calls. -/
  counted : s.threads.countP Runner.inside = s.called.length

/-- A pool thread that moves outside callbacks. -/
theorem Engaged.turn {old new : Runner} (engaged : s.Engaged) (found : s.threads[t]? = some old)
    (threads : s'.threads = s.threads.set t new) (called : s'.called = s.called)
    (before : old.inside = false) (after : new.inside = false) : s'.Engaged := by
  have moved := Crew.countP_set found new Runner.inside
  constructor
  · intro call member
    rw [called] at member
    have inside := engaged.running call member
    rw [threads, List.getElem?_set_ne]
    · exact inside
    · rintro rfl
      rw [found] at inside
      rw [Option.some.inj inside] at before
      contradiction
  · rw [threads, called, ← engaged.counted]
    rw [before, after] at moved
    exact moved

/-- A pool thread keeps its callback. -/
theorem Engaged.run (engaged : s.Engaged) (kept : ¬s.Returns (.thread t))
    (moved : RunnerStep s t s') : s'.Engaged := by
  cases moved with
  | locked at_lock _ =>
    rcases at_lock with found | found
    · exact engaged.turn found rfl rfl rfl rfl
    · exact engaged.turn found rfl rfl rfl rfl
  | sizedEmpty found _ => exact engaged.turn found rfl rfl rfl rfl
  | sized found _ => exact engaged.turn found rfl rfl rfl rfl
  | slept found => exact engaged.turn found rfl rfl rfl rfl
  | poppedEmpty found _ => exact engaged.turn found rfl rfl rfl rfl
  | popped found _ => exact engaged.turn found rfl rfl rfl rfl
  | unlockedEmpty found => exact engaged.turn found rfl rfl rfl rfl
  | unlocked found => exact engaged.turn found rfl rfl rfl rfl
  | unlockedAgain found => exact engaged.turn found rfl rfl rfl rfl
  | @called task threadpoolTask found given =>
    have inside : t < s.threads.length := (List.getElem?_eq_some_iff.mp found).1
    have moved := Crew.countP_set found (.running task) Runner.inside
    constructor
    · intro call member
      rcases List.mem_append.mp member with old | own
      · have before := engaged.running call old
        show (s.threads.set t _)[call.thread]? = _
        rw [List.getElem?_set_ne]
        · exact before
        · rintro rfl
          rw [found] at before
          cases before
      · rw [List.mem_singleton.mp own]
        exact List.getElem?_set_self inside
    · show (s.threads.set t _).countP Runner.inside = (s.called ++ [_]).length
      rw [List.length_append, List.length_singleton, ← engaged.counted]
      exact moved
  | returned found =>
    have returns : s.Returns (.thread t) := by
      show s.threads[t]?.any Runner.inside = true
      rw [found]
      rfl
    exact absurd returns kept

/-- Every step of a run in which no callback returns keeps the calls running. -/
theorem Engaged.step {l : PoolLabel Cb Arg} (engaged : s.Engaged) (lasting : Lasting s l)
    (stepped : s.step l = some s') : s'.Engaged := by
  cases l with
  | thread t =>
    obtain ⟨next, pc, moved, _, rfl⟩ := runnerStep_cases stepped
    have kept := engaged.run lasting.2 moved
    exact ⟨kept.running, kept.counted⟩
  | wake t =>
    obtain ⟨at_blocked, rfl⟩ := wake_cases stepped
    exact engaged.turn at_blocked rfl rfl rfl rfl
  | addtask a cb arg task =>
    obtain ⟨_, _, rfl⟩ := addtaskCall_cases stepped
    exact ⟨engaged.running, engaged.counted⟩
  | adder a woken =>
    cases threadpoolAddtask_cases stepped with
    | signalled _ at_blocked =>
      have roused : (s.setThread _ .woken).Engaged := engaged.turn at_blocked rfl rfl rfl rfl
      exact ⟨roused.running, roused.counted⟩
    | locked _ _ | pushed _ | unlocked _ | unheard _ _ =>
      exact ⟨engaged.running, engaged.counted⟩
  | destroyer woken => exact lasting.1.elim

/-- A new pool has called nothing. -/
theorem Started.engaged (started : s.Started) : s.Engaged := by
  obtain ⟨thread_count, adders, rfl⟩ := started
  refine ⟨fun _ member => (List.not_mem_nil member).elim, ?_⟩
  exact List.countP_eq_zero.mpr fun pc member => by
    rw [List.eq_of_mem_replicate member]
    decide

end Threadpool

end EpollNet
