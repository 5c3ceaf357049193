import EpollNet.Net.Threadpool

/-!
# The array of a pool's threads

`Threadpool_Create` counts the threads it is asked for, and each one again when it is created.
`Threadpool_Destroy`, called for a pool that was returned or when a creation fails, joins as many
entries of `threadmgr`. Both loops count in an `int`.
-/

namespace EpollNet

/-- What makes a loop over `threadmgr` undefined. -/
inductive LoopFault where
  /-- An index outside of the array. -/
  | outside
  /-- An `int` that overflows. -/
  | overflow
deriving DecidableEq

/-- What creation and destruction use of `struct tagThreadpool`. -/
structure ThreadpoolObj where
  /-- `threadmgr`, with the call of `pthread_create` that filled each entry. -/
  threadmgr : List (Option Nat)
  /-- `thread_count`. -/
  thread_count : BitVec 32
deriving DecidableEq

/-- What the calls of `Threadpool_Create` answer. -/
structure PoolInput where
  /-- `malloc` grants the pool. -/
  pool : Bool
  /-- `malloc` grants `threadmgr`. -/
  threadmgr : Bool
  /-- `pthread_create` creates the thread for this entry. -/
  created : Nat → Bool

/-- `++i` of an `int` that is not negative. -/
def nextIndex (i : Nat) : Except LoopFault Nat :=
  if i + 1 = 2 ^ 31 then .error .overflow else .ok (i + 1)

/-- The loop of `Threadpool_Create` with so many rounds left: the pool, and whether it is returned
or given to `Threadpool_Destroy`. -/
def createLoop (created : Nat → Bool) :
    Nat → Nat → ThreadpoolObj → Except LoopFault (Bool × ThreadpoolObj)
  | 0, _, obj => .ok (true, obj)
  | left + 1, i, obj =>
    if created i then do
      let obj : ThreadpoolObj := ⟨obj.threadmgr.set i (some i), obj.thread_count + 1⟩
      let i ← nextIndex i
      createLoop created left i obj
    else .ok (false, obj)

/-- `Threadpool_Create`, up to its `Threadpool_Destroy` if a creation fails. -/
def threadpoolCreate (thread_count : BitVec 32) (input : PoolInput) :
    Except LoopFault (Option (Bool × ThreadpoolObj)) :=
  if input.pool && input.threadmgr then do
    let obj : ThreadpoolObj := ⟨List.replicate thread_count.toNat none, thread_count⟩
    let made ← createLoop input.created thread_count.toNat 0 obj
    .ok (some made)
  else .ok none

/-- The loop of `Threadpool_Destroy` with so many rounds left: the entries it joins. -/
def joinLoop (threadmgr : List (Option Nat)) : Nat → Nat → Except LoopFault (List (Option Nat))
  | 0, _ => .ok []
  | left + 1, i =>
    match threadmgr[i]? with
    | none => .error .outside
    | some thread => do
      let i ← nextIndex i
      let joined ← joinLoop threadmgr left i
      .ok (thread :: joined)

/-- `Threadpool_Destroy` of a pool whose locker signals. -/
def ThreadpoolObj.threadpoolDestroy (obj : ThreadpoolObj) :
    Except LoopFault (List (Option Nat)) :=
  joinLoop obj.threadmgr obj.thread_count.toNat 0

end EpollNet
