import EpollNet.Net.Threadpool

/-!
# What a step of the pool does

`PoolStep` lists the steps of the pool's threads with what each one found and what it changed, and
`pool_step_cases` says that there are no others.
-/

namespace EpollNet

namespace Threadpool

variable {Cb Arg : Type}

/-- A step of `Threadpool_Run` in thread `t`. -/
inductive RunnerStep (s : Threadpool Cb Arg) (t : Nat) : Threadpool Cb Arg → Prop
  /-- The lock is taken. -/
  | locked (at_lock : s.threads[t]? = some .lock ∨ s.threads[t]? = some .woken)
    (free : s.locked = false) : RunnerStep s t ({ s with locked := true }.setThread t .size)
  /-- No size is seen. -/
  | sizedEmpty (at_size : s.threads[t]? = some .size) (zero : dataQueueSize s.queue = 0) :
    RunnerStep s t (s.setThread t .cwait)
  /-- A size is seen. -/
  | sized (at_size : s.threads[t]? = some .size) (positive : 0 < dataQueueSize s.queue) :
    RunnerStep s t (s.setThread t .pop)
  /-- The wait begins. -/
  | slept (at_cwait : s.threads[t]? = some .cwait) :
    RunnerStep s t ({ s with locked := false }.setThread t .blocked)
  /-- There is no task. -/
  | poppedEmpty (at_pop : s.threads[t]? = some .pop) (empty : s.queue = []) :
    RunnerStep s t (s.setThread t (.unlock none))
  /-- A task is taken. -/
  | popped {task : Nat} {rest : List Nat} (at_pop : s.threads[t]? = some .pop)
    (queue : s.queue = task :: rest) :
    RunnerStep s t
      ({ s with queue := rest, popped := s.popped ++ [(t, task)] }.setThread t
        (.unlock (some task)))
  /-- The lock is given back without a task. -/
  | unlockedEmpty (at_unlock : s.threads[t]? = some (.unlock none)) :
    RunnerStep s t ({ s with locked := false }.setThread t .unlockAgain)
  /-- The lock is given back with a task. -/
  | unlocked {task : Nat} (at_unlock : s.threads[t]? = some (.unlock (some task))) :
    RunnerStep s t ({ s with locked := false }.setThread t (.call task))
  /-- The lock is given back once more. -/
  | unlockedAgain (at_unlock : s.threads[t]? = some .unlockAgain) :
    RunnerStep s t ({ s with locked := false }.setThread t .exited)
  /-- The callback is called. -/
  | called {task : Nat} {threadpoolTask : ThreadpoolTask Cb Arg}
    (at_call : s.threads[t]? = some (.call task)) (given : s.tasks task = some threadpoolTask) :
    RunnerStep s t
      ({ s with called := s.called ++
          [Invocation.mk t task threadpoolTask.cb threadpoolTask.arg] }.setThread t (.running task))
  /-- The callback returns. -/
  | returned {task : Nat} (at_running : s.threads[t]? = some (.running task)) :
    RunnerStep s t (s.setThread t .lock)

/-- A step of `Threadpool_Addtask` in adder `a` behind its `malloc`. -/
inductive AdderStep (s : Threadpool Cb Arg) (a : Nat) : Option Nat → Threadpool Cb Arg → Prop
  /-- The lock is taken. -/
  | locked {task : Nat} {woken : Option Nat} (at_lock : s.adders[a]? = some (.lock task))
    (free : s.locked = false) :
    AdderStep s a woken ({ s with locked := true }.setAdder a (.push task))
  /-- The task is pushed. -/
  | pushed {task : Nat} {woken : Option Nat} (at_push : s.adders[a]? = some (.push task)) :
    AdderStep s a woken
      ({ s with queue := s.queue ++ [task], pushed := s.pushed ++ [task] }.setAdder a .unlock)
  /-- The lock is given back. -/
  | unlocked {woken : Option Nat} (at_unlock : s.adders[a]? = some .unlock) :
    AdderStep s a woken ({ s with locked := false }.setAdder a .signal)
  /-- A thread is woken. -/
  | signalled {t : Nat} (at_signal : s.adders[a]? = some .signal)
    (at_blocked : s.threads[t]? = some .blocked) :
    AdderStep s a (some t) ((s.setThread t .woken).setAdder a .idle)
  /-- There is nobody to be woken. -/
  | unheard (at_signal : s.adders[a]? = some .signal) (nobody : .blocked ∉ s.threads) :
    AdderStep s a none (s.setAdder a .idle)

variable {s s' : Threadpool Cb Arg} {t a : Nat} {woken : Option Nat}

/-- A new pool is one. -/
theorem create_started (thread_count adders : Nat) :
    (create thread_count adders : Threadpool Cb Arg).Started := ⟨thread_count, adders, rfl⟩

/-- A signal wakes a blocked thread or finds none. -/
theorem signal_cases (signalled : s.signal woken = some s') :
    (woken = none ∧ .blocked ∉ s.threads ∧ s' = s) ∨
      ∃ t, woken = some t ∧ s.threads[t]? = some .blocked ∧ s' = s.setThread t .woken := by
  cases woken with
  | none =>
    simp only [signal] at signalled
    split at signalled
    · cases signalled
    · rename_i nobody
      exact .inl ⟨rfl, nobody, (Option.some.inj signalled).symm⟩
  | some t =>
    simp only [signal] at signalled
    split at signalled
    · rename_i at_blocked
      exact .inr ⟨t, rfl, at_blocked, (Option.some.inj signalled).symm⟩
    · cases signalled

/-- The steps of `Threadpool_Run`. -/
theorem threadpoolRun_cases (stepped : s.threadpoolRun t = some s') : RunnerStep s t s' := by
  unfold threadpoolRun at stepped
  cases found : s.threads[t]? with
  | none =>
    rw [found] at stepped
    cases stepped
  | some pc =>
    rw [found] at stepped
    have taken : (if s.locked = true then none
        else some ({ s with locked := true }.setThread t .size)) = some s' →
        s.locked = false ∧ s' = { s with locked := true }.setThread t .size := by
      intro taken
      split at taken
      · cases taken
      · rename_i free
        exact ⟨Bool.eq_false_of_not_eq_true free, (Option.some.inj taken).symm⟩
    cases pc with
    | lock =>
      obtain ⟨free, rfl⟩ := taken stepped
      exact .locked (.inl found) free
    | woken =>
      obtain ⟨free, rfl⟩ := taken stepped
      exact .locked (.inr found) free
    | size =>
      simp only at stepped
      split at stepped
      · rename_i zero
        cases stepped
        exact .sizedEmpty found (Nat.le_zero.mp zero)
      · rename_i positive
        cases stepped
        exact .sized found (Nat.lt_of_not_le positive)
    | cwait =>
      cases stepped
      exact .slept found
    | pop =>
      cases queue : s.queue with
      | nil =>
        simp only [queue, dataQueuePop] at stepped
        cases stepped
        have same : { s with queue := [] } = s := by rw [← queue]
        rw [same]
        exact .poppedEmpty found queue
      | cons task rest =>
        simp only [queue, dataQueuePop] at stepped
        cases stepped
        exact .popped found queue
    | unlock task =>
      cases task with
      | none =>
        cases stepped
        exact .unlockedEmpty found
      | some task =>
        cases stepped
        exact .unlocked found
    | unlockAgain =>
      cases stepped
      exact .unlockedAgain found
    | call task =>
      obtain ⟨threadpoolTask, given, rfl⟩ := Option.map_eq_some_iff.mp stepped
      exact .called found given
    | running task =>
      cases stepped
      exact .returned found
    | blocked => cases stepped
    | exited => cases stepped

/-- A pool thread that steps is somewhere. -/
theorem RunnerStep.found (moved : RunnerStep s t s') : ∃ pc, s.threads[t]? = some pc := by
  cases moved with
  | locked at_lock _ => exact at_lock.elim (fun found => ⟨_, found⟩) fun found => ⟨_, found⟩
  | sizedEmpty found _ | sized found _ | slept found | poppedEmpty found _ | popped found _
  | unlockedEmpty found | unlocked found | unlockedAgain found | called found _
  | returned found => exact ⟨_, found⟩

/-- It moves its own thread and leaves what was released. -/
theorem RunnerStep.frame (moved : RunnerStep s t s') :
    s'.released = s.released ∧ s'.destroyer = s.destroyer ∧ s'.misused = s.misused ∧
      s'.undefined = s.undefined ∧ s'.thread_count = s.thread_count ∧
      ∃ new, s'.threads = s.threads.set t new := by
  cases moved <;> exact ⟨rfl, rfl, rfl, rfl, rfl, _, rfl⟩

/-- A step of a pool thread is one of `Threadpool_Run`, with a misuse remembered. -/
theorem runnerStep_cases (stepped : s.runnerStep t = some s') :
    ∃ next pc, RunnerStep s t next ∧ s.threads[t]? = some pc ∧
      s' = { next with misused := next.misused || pc.misuses s.released } := by
  obtain ⟨next, ran, rfl⟩ := Option.map_eq_some_iff.mp stepped
  have moved := threadpoolRun_cases ran
  obtain ⟨pc, found⟩ := moved.found
  refine ⟨next, pc, moved, found, ?_⟩
  rw [found]
  rfl

/-- A spurious wake-up finds a blocked thread. -/
theorem wake_cases (stepped : s.step (.wake t) = some s') :
    s.threads[t]? = some .blocked ∧ s' = s.setThread t .woken := by
  simp only [step] at stepped
  split at stepped
  · rename_i at_blocked
    exact ⟨at_blocked, (Option.some.inj stepped).symm⟩
  · cases stepped

/-- `Threadpool_Addtask` begins with a task of its own. -/
theorem addtaskCall_cases {cb : Cb} {arg : Arg} {task : Nat}
    (stepped : s.addtaskCall a cb arg task = some s') :
    s.adders[a]? = some .idle ∧ s.tasks task = none ∧
      s' = { s with tasks := Function.update s.tasks task (some ⟨cb, arg⟩) }.setAdder a
        (.lock task) := by
  unfold addtaskCall at stepped
  split at stepped
  · rename_i idle free
    exact ⟨idle, free, (Option.some.inj stepped).symm⟩
  · cases stepped

/-- The steps of `Threadpool_Addtask`. -/
theorem threadpoolAddtask_cases (stepped : s.threadpoolAddtask a woken = some s') :
    AdderStep s a woken s' := by
  unfold threadpoolAddtask at stepped
  cases found : s.adders[a]? with
  | none =>
    rw [found] at stepped
    cases stepped
  | some pc =>
    rw [found] at stepped
    cases pc with
    | idle => cases stepped
    | lock task =>
      simp only at stepped
      split at stepped
      · cases stepped
      · rename_i free
        cases stepped
        exact .locked found (Bool.eq_false_of_not_eq_true free)
    | push task =>
      cases stepped
      exact .pushed found
    | unlock =>
      cases stepped
      exact .unlocked found
    | signal =>
      obtain ⟨next, signalled, rfl⟩ := Option.map_eq_some_iff.mp stepped
      rcases signal_cases signalled with ⟨rfl, nobody, rfl⟩ | ⟨t, rfl, at_blocked, rfl⟩
      · exact .unheard found nobody
      · exact .signalled found at_blocked

end Threadpool

end EpollNet
