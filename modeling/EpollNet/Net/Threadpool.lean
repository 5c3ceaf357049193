import EpollNet.Basis.Transition
import EpollNet.Net.Server

/-!
# The thread pool

The threads of a pool in `Threadpool_Run`, callers of `Threadpool_Addtask` and one caller of
`Threadpool_Destroy`, interleaved. A step is one call of a locker's or a queue's function. A thread
blocked in `pthread_cond_wait` is woken by a signal, which wakes one of them if there are any, or
spuriously, and takes the mutex again in a step of its own. A pool thread that uses what
`Threadpool_Free` has released is remembered, and so is a call of `Threadpool_Destroy` whose
outcome C or POSIX leaves undefined; the run then goes on in one of the ways it may.
-/

namespace EpollNet

/-! ## Threads -/

/-- `Threadpool_Task`: what it calls, with which argument. -/
structure ThreadpoolTask (Cb Arg : Type) where
  /-- `cb`. -/
  cb : Cb
  /-- `arg`. -/
  arg : Arg
deriving DecidableEq

/-- Where a pool thread in `Threadpool_Run` is. -/
inductive Runner where
  /-- About to take the lock. -/
  | lock
  /-- With the lock, about to read the queue's size. -/
  | size
  /-- With the lock, about to wait. -/
  | cwait
  /-- Blocked in the wait. -/
  | blocked
  /-- Woken in the wait, about to take the lock again. -/
  | woken
  /-- With the lock, about to pop. -/
  | pop
  /-- With the lock, about to give it back. -/
  | unlock (task : Option Nat)
  /-- Without a task, about to give back the lock once more and return. -/
  | unlockAgain
  /-- About to call the task's callback. -/
  | call (task : Nat)
  /-- Inside the callback. -/
  | running (task : Nat)
  /-- The function returned. -/
  | exited
deriving DecidableEq

/-- Where a thread that calls `Threadpool_Addtask` is. -/
inductive Adder where
  /-- Outside. -/
  | idle
  /-- With its task, about to take the lock. -/
  | lock (task : Nat)
  /-- With the lock, about to push. -/
  | push (task : Nat)
  /-- With the lock, about to give it back. -/
  | unlock
  /-- About to signal. -/
  | signal
deriving DecidableEq

/-- Where the call of `Threadpool_Destroy` is. -/
inductive Destroyer where
  /-- Not called yet, or about to take the lock. -/
  | lock
  /-- With the lock, about to signal. -/
  | signal
  /-- With the lock, about to join a thread or to give the lock back. -/
  | join (i : Nat)
  /-- In `Threadpool_Free`, about to free `threadmgr`. -/
  | freeThreadmgr
  /-- About to clear the queue. -/
  | clearQueue
  /-- About to clear the locker. -/
  | clearLocker
  /-- About to free the pool. -/
  | freePool
  /-- It returned. -/
  | done
deriving DecidableEq

/-- What `Threadpool_Free` has released. -/
structure Released where
  /-- The queue. -/
  queue : Bool
  /-- The locker. -/
  locker : Bool
  /-- The pool. -/
  pool : Bool
deriving DecidableEq

/-- What the next step of a pool thread uses has been released. -/
def Runner.misuses (released : Released) : Runner → Bool
  | .lock | .cwait | .unlock _ | .unlockAgain => released.pool || released.locker
  | .woken => released.locker
  | .size | .pop => released.pool || released.queue
  | .blocked | .call _ | .running _ | .exited => false

/-! ## The pool -/

/-- A call of a callback. -/
structure Invocation (Cb Arg : Type) where
  /-- The pool thread that calls. -/
  thread : Nat
  /-- The task it has taken. -/
  task : Nat
  /-- The callback. -/
  cb : Cb
  /-- Its argument. -/
  arg : Arg
deriving DecidableEq

/-- State of a pool and of the threads that use it. -/
structure Threadpool (Cb Arg : Type) where
  /-- The pool threads. -/
  threads : List Runner
  /-- The callers of `Threadpool_Addtask`. -/
  adders : List Adder
  /-- The caller of `Threadpool_Destroy`. -/
  destroyer : Destroyer
  /-- `thread_count`. -/
  thread_count : Nat
  /-- The mutex is held. -/
  locked : Bool
  /-- The queue of tasks. -/
  queue : List Nat
  /-- The tasks by address; none is ever freed. -/
  tasks : Nat → Option (ThreadpoolTask Cb Arg)
  /-- What was released. -/
  released : Released
  /-- Tasks pushed, in order; bookkeeping of the model, as are the next three. -/
  pushed : List Nat
  /-- Tasks popped and who popped them, in order. -/
  popped : List (Nat × Nat)
  /-- Callbacks called, in order. -/
  called : List (Invocation Cb Arg)
  /-- A pool thread used what was released. -/
  misused : Bool
  /-- `Threadpool_Destroy` made a call that is undefined. -/
  undefined : Bool

/-- A step of some thread. -/
inductive PoolLabel (Cb Arg : Type) where
  /-- A pool thread steps. -/
  | thread (t : Nat)
  /-- A blocked pool thread is woken spuriously. -/
  | wake (t : Nat)
  /-- `Threadpool_Addtask` is called, and `malloc` gives it this address. -/
  | addtask (a : Nat) (cb : Cb) (arg : Arg) (task : Nat)
  /-- An adder steps; its signal wakes this thread. -/
  | adder (a : Nat) (woken : Option Nat)
  /-- The destroyer steps; its signal wakes this thread. -/
  | destroyer (woken : Option Nat)

variable {Cb Arg : Type}

namespace Threadpool

/-- `Threadpool_Create` of a number of threads, with threads that will call `Threadpool_Addtask`.
The loop counts every thread once more. -/
def create (thread_count adders : Nat) : Threadpool Cb Arg where
  threads := List.replicate thread_count .lock
  adders := List.replicate adders .idle
  destroyer := .lock
  thread_count := (thread_count + thread_count) % 2 ^ 32
  locked := false
  queue := []
  tasks := fun _ => none
  released := ⟨false, false, false⟩
  pushed := []
  popped := []
  called := []
  misused := false
  undefined := false

/-- A new pool has a thread for each one asked for. -/
theorem create_threads (thread_count adders : Nat) :
    (create thread_count adders : Threadpool Cb Arg).threads =
      List.replicate thread_count .lock := by
  rw [create]

/-- A new pool. -/
def Started (s : Threadpool Cb Arg) : Prop := ∃ thread_count adders, s = create thread_count adders

/-- Move one pool thread. -/
def setThread (s : Threadpool Cb Arg) (t : Nat) (pc : Runner) : Threadpool Cb Arg :=
  { s with threads := s.threads.set t pc }

/-- Move one adder. -/
def setAdder (s : Threadpool Cb Arg) (a : Nat) (pc : Adder) : Threadpool Cb Arg :=
  { s with adders := s.adders.set a pc }

/-- `pthread_cond_signal`, waking a blocked thread if there are any. -/
def signal (s : Threadpool Cb Arg) (woken : Option Nat) : Option (Threadpool Cb Arg) :=
  match woken with
  | some t => if s.threads[t]? = some .blocked then some (s.setThread t .woken) else none
  | none => if Runner.blocked ∈ s.threads then none else some s

/-- One step of `Threadpool_Run` in thread `t`. -/
def threadpoolRun (s : Threadpool Cb Arg) (t : Nat) : Option (Threadpool Cb Arg) :=
  match s.threads[t]? with
  | some .lock | some .woken =>
    if s.locked then none else some ({ s with locked := true }.setThread t .size)
  | some .size =>
    if dataQueueSize s.queue ≤ 0 then some (s.setThread t .cwait) else some (s.setThread t .pop)
  | some .cwait => some ({ s with locked := false }.setThread t .blocked)
  | some .pop =>
    match dataQueuePop s.queue with
    | (none, queue) => some ({ s with queue }.setThread t (.unlock none))
    | (some task, queue) =>
      some ({ s with queue, popped := s.popped ++ [(t, task)] }.setThread t (.unlock (some task)))
  | some (.unlock none) => some ({ s with locked := false }.setThread t .unlockAgain)
  | some (.unlock (some task)) => some ({ s with locked := false }.setThread t (.call task))
  | some .unlockAgain => some ({ s with locked := false }.setThread t .exited)
  | some (.call task) =>
    (s.tasks task).map fun threadpoolTask =>
      let invocation : Invocation Cb Arg := ⟨t, task, threadpoolTask.cb, threadpoolTask.arg⟩
      { s with called := s.called ++ [invocation] }.setThread t (.running task)
  | some (.running _) => some (s.setThread t .lock)
  | some .blocked | some .exited | none => none

/-- A step of thread `t`, with what it uses remembered. -/
def runnerStep (s : Threadpool Cb Arg) (t : Nat) : Option (Threadpool Cb Arg) :=
  let misuses := (s.threads[t]?.map (Runner.misuses s.released)).getD false
  (s.threadpoolRun t).map fun s' => { s' with misused := s'.misused || misuses }

/-- The beginning of `Threadpool_Addtask` with a callback, up to its lock. -/
def addtaskCall (s : Threadpool Cb Arg) (a : Nat) (cb : Cb) (arg : Arg) (task : Nat) :
    Option (Threadpool Cb Arg) :=
  match s.adders[a]?, s.tasks task with
  | some .idle, none =>
    some ({ s with tasks := Function.update s.tasks task (some ⟨cb, arg⟩) }.setAdder a (.lock task))
  | _, _ => none

/-- One step of the rest of `Threadpool_Addtask` in adder `a`. -/
def threadpoolAddtask (s : Threadpool Cb Arg) (a : Nat) (woken : Option Nat) :
    Option (Threadpool Cb Arg) :=
  match s.adders[a]? with
  | some (.lock task) =>
    if s.locked then none else some ({ s with locked := true }.setAdder a (.push task))
  | some (.push task) =>
    some ({ s with
      queue := dataQueuePush s.queue task
      pushed := s.pushed ++ [task] }.setAdder a .unlock)
  | some .unlock => some ({ s with locked := false }.setAdder a .signal)
  | some .signal => (s.signal woken).map fun s => s.setAdder a .idle
  | some .idle | none => none

/-- The join of the thread in entry `i` reads outside of `threadmgr`, which has an entry for every
thread, or its index overflows. -/
def joinUndefined (s : Threadpool Cb Arg) (i : Nat) : Bool :=
  s.threads.length ≤ i || i + 1 = 2 ^ 31

/-- One step of `Threadpool_Destroy`; a signal succeeds, and joining a detached thread fails at
once. Clearing a locker in whose wait a thread is blocked is undefined. -/
def threadpoolDestroy (s : Threadpool Cb Arg) (woken : Option Nat) : Option (Threadpool Cb Arg) :=
  match s.destroyer with
  | .lock => if s.locked then none else some { s with locked := true, destroyer := .signal }
  | .signal => (s.signal woken).map fun s => { s with destroyer := .join 0 }
  | .join i =>
    if i < s.thread_count then
      some { s with undefined := s.undefined || s.joinUndefined i, destroyer := .join (i + 1) }
    else some { s with locked := false, destroyer := .freeThreadmgr }
  | .freeThreadmgr => some { s with destroyer := .clearQueue }
  | .clearQueue =>
    some { s with
      queue := []
      released := { s.released with queue := true }
      destroyer := .clearLocker }
  | .clearLocker =>
    some { s with
      undefined := s.undefined || s.threads.contains .blocked
      released := { s.released with locker := true }
      destroyer := .freePool }
  | .freePool => some { s with released := { s.released with pool := true }, destroyer := .done }
  | .done => none

/-- One step; `none` when the label is not enabled. -/
def step (s : Threadpool Cb Arg) : PoolLabel Cb Arg → Option (Threadpool Cb Arg)
  | .thread t => s.runnerStep t
  | .wake t => if s.threads[t]? = some .blocked then some (s.setThread t .woken) else none
  | .addtask a cb arg task => s.addtaskCall a cb arg task
  | .adder a woken => s.threadpoolAddtask a woken
  | .destroyer woken => s.threadpoolDestroy woken

end Threadpool

end EpollNet
