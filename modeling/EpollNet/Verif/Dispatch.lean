import EpollNet.Basis.Crew
import EpollNet.Verif.PoolSteps
import Mathlib.Data.List.Nodup

/-!
# Tasks of a pool

While the pool is not destroyed, one thread at most is between taking the lock and giving it back,
so a thread that saw a size finds a task. A task is pushed once, popped in turn by one thread and
called by that thread. A thread that is blocked has been told of every task that came since: for
each task in the queue there is an adder about to signal, a woken thread, or the thread that holds
the lock on its way to the pop.
-/

namespace EpollNet

open EpollNet.Basis

namespace Threadpool

variable {Cb Arg : Type}

/-! ## Runs -/

/-- The pool is not destroyed. -/
def Standing (_ : Threadpool Cb Arg) : PoolLabel Cb Arg → Prop
  | .destroyer _ => False
  | _ => True

instance (s : Threadpool Cb Arg) (l : PoolLabel Cb Arg) : Decidable (Standing s l) :=
  match l with
  | .destroyer _ => inferInstanceAs (Decidable False)
  | .thread _ | .wake _ | .addtask .. | .adder .. => inferInstanceAs (Decidable True)

end Threadpool

/-- The thread holds the lock. -/
def Runner.holds : Runner → Bool
  | .size | .cwait | .pop | .unlock _ => true
  | _ => false

/-- The thread saw a size. -/
def Runner.popping : Runner → Bool
  | .pop => true
  | _ => false

/-- The thread saw no size. -/
def Runner.waiting : Runner → Bool
  | .cwait => true
  | _ => false

/-- The thread is blocked. -/
def Runner.asleep : Runner → Bool
  | .blocked => true
  | _ => false

/-- The thread will look at the queue, or has looked and will pop. -/
def Runner.coming : Runner → Bool
  | .woken | .size | .pop => true
  | _ => false

/-- The thread is in its loop. -/
def Runner.looping : Runner → Bool
  | .unlock none | .unlockAgain | .exited => false
  | _ => true

/-- The task the thread has popped and not called. -/
def Runner.task : Runner → Option Nat
  | .unlock task => task
  | .call task => some task
  | _ => none

/-- The adder holds the lock. -/
def Adder.holds : Adder → Bool
  | .push _ | .unlock => true
  | _ => false

/-- The adder is about to push. -/
def Adder.pushing : Adder → Bool
  | .push _ => true
  | _ => false

/-- The adder has pushed and will signal. -/
def Adder.pending : Adder → Bool
  | .unlock | .signal => true
  | _ => false

/-- The task the adder has not pushed yet. -/
def Adder.task : Adder → Option Nat
  | .lock task | .push task => some task
  | _ => none

namespace Threadpool

variable {Cb Arg : Type} {s s' : Threadpool Cb Arg} {t a : Nat}
  {woken : Option Nat}

/-- The pool is not destroyed, and no push makes the number of its tasks overflow. -/
def Roomy (s : Threadpool Cb Arg) : PoolLabel Cb Arg → Prop
  | .destroyer _ => False
  | .adder a _ => s.adders[a]?.any Adder.pushing = true → s.queue.length + 1 < 2 ^ 32
  | _ => True

instance (s : Threadpool Cb Arg) (l : PoolLabel Cb Arg) : Decidable (Roomy s l) :=
  match l with
  | .destroyer _ => inferInstanceAs (Decidable False)
  | .adder a _ => inferInstanceAs (Decidable
      (s.adders[a]?.any Adder.pushing = true → s.queue.length + 1 < 2 ^ 32))
  | .thread _ | .wake _ | .addtask .. => inferInstanceAs (Decidable True)

/-! ## The lock -/

/-- One thread at most holds the lock, and a thread that saw a size finds a task. -/
structure Guarded (s : Threadpool Cb Arg) : Prop where
  /-- The lock is held by one thread, or by none. -/
  mutex : s.threads.countP Runner.holds + s.adders.countP Adder.holds = s.locked.toNat
  /-- There is a task for a thread that saw a size. -/
  enough : s.threads.countP Runner.popping ≤ s.queue.length
  /-- No thread has left its loop. -/
  looping : ∀ thread ∈ s.threads, thread.looping = true

/-- What is remembered of misuses does not matter. -/
theorem Guarded.misuse (guarded : s.Guarded) (misused : Bool) :
    Guarded { s with misused } := ⟨guarded.mutex, guarded.enough, guarded.looping⟩

/-- A pool thread that moves with the lock accounted for, and with the task it is sure of. -/
theorem Guarded.turn {old new : Runner} (guarded : s.Guarded) (found : s.threads[t]? = some old)
    (threads : s'.threads = s.threads.set t new) (adders : s'.adders = s.adders)
    (mutex : s'.locked.toNat + old.holds.toNat = s.locked.toNat + new.holds.toNat)
    (enough : s.threads.countP Runner.popping + new.popping.toNat ≤
      s'.queue.length + old.popping.toNat) (looping : new.looping = true) : s'.Guarded := by
  have held := Crew.countP_set found new Runner.holds
  have popping := Crew.countP_set found new Runner.popping
  have before := guarded.mutex
  refine ⟨?_, ?_, fun thread member => ?_⟩
  · rw [threads, adders]
    omega
  · rw [threads]
    omega
  · rw [threads] at member
    rcases List.mem_or_eq_of_mem_set member with old | rfl
    · exact guarded.looping thread old
    · exact looping

/-- An adder that moves with the lock accounted for. -/
theorem Guarded.add {old new : Adder} (guarded : s.Guarded) (found : s.adders[a]? = some old)
    (threads : s'.threads = s.threads) (adders : s'.adders = s.adders.set a new)
    (mutex : s'.locked.toNat + old.holds.toNat = s.locked.toNat + new.holds.toNat)
    (more : s.queue.length ≤ s'.queue.length) : s'.Guarded := by
  have held := Crew.countP_set found new Adder.holds
  have before := guarded.mutex
  refine ⟨?_, ?_, ?_⟩
  · rw [threads, adders]
    omega
  · rw [threads]
    exact guarded.enough.trans more
  · rw [threads]
    exact guarded.looping

/-- While a pool thread holds the lock, no other pool thread does what needs it. -/
theorem Guarded.sole {old : Runner} (guarded : s.Guarded) (found : s.threads[t]? = some old)
    (held : old.holds = true) {strong : Runner → Bool}
    (stronger : ∀ thread, strong thread = true → Runner.holds thread = true)
    (lacks : strong old = false) : s.threads.countP strong = 0 := by
  refine Crew.countP_eq_zero_of_sole found held ?_ stronger lacks
  have counted := guarded.mutex
  have one := Bool.toNat_le s.locked
  omega

/-- While an adder holds the lock, no pool thread does what needs it. -/
theorem Guarded.alone {old : Adder} (guarded : s.Guarded) (found : s.adders[a]? = some old)
    (held : old.holds = true) {strong : Runner → Bool}
    (stronger : ∀ thread, strong thread = true → Runner.holds thread = true) :
    s.threads.countP strong = 0 := by
  have here : 0 < s.adders.countP Adder.holds := Crew.countP_pos found held
  have counted := guarded.mutex
  have one := Bool.toNat_le s.locked
  have fewer : s.threads.countP strong ≤ s.threads.countP Runner.holds :=
    List.countP_mono_left fun thread _ => stronger thread
  omega

/-- The lock is taken while somebody holds it. -/
theorem Guarded.taken (guarded : s.Guarded)
    (somebody : 0 < s.threads.countP Runner.holds + s.adders.countP Adder.holds) :
    s.locked = true := by
  rw [guarded.mutex] at somebody
  cases locked : s.locked with
  | true => rfl
  | false =>
    rw [locked] at somebody
    exact (Nat.lt_irrefl 0 somebody).elim

/-- A pool thread that has the lock to give back holds it. -/
theorem Guarded.locked {old : Runner} (guarded : s.Guarded) (found : s.threads[t]? = some old)
    (held : old.holds = true) : s.locked = true := by
  exact guarded.taken (Nat.add_pos_left (Crew.countP_pos found held) _)

/-- So does an adder. -/
theorem Guarded.lockedByAdder {old : Adder} (guarded : s.Guarded)
    (found : s.adders[a]? = some old) (held : old.holds = true) : s.locked = true := by
  exact guarded.taken (Nat.add_pos_right _ (Crew.countP_pos found held))

/-- A thread that saw a size finds a task. -/
theorem Guarded.found (guarded : s.Guarded) (found : s.threads[t]? = some .pop) :
    s.queue ≠ [] := by
  intro empty
  have here : 0 < s.threads.countP Runner.popping := Crew.countP_pos found rfl
  have enough := guarded.enough
  rw [empty] at enough
  exact absurd enough (Nat.not_le_of_lt here)

/-- A thread in its loop is at none of the places behind a pop that found no task. -/
theorem Guarded.absurd {old : Runner} (guarded : s.Guarded) (found : s.threads[t]? = some old)
    (left : old.looping = false) : False :=
  Bool.false_ne_true (left.symm.trans (guarded.looping old (List.mem_of_getElem? found)))

/-- A pool thread keeps the lock safe. -/
theorem Guarded.run (guarded : s.Guarded) (moved : RunnerStep s t s') : s'.Guarded := by
  have enough := guarded.enough
  cases moved with
  | locked at_lock free =>
    rcases at_lock with found | found <;>
    · refine guarded.turn found rfl rfl ?_ enough rfl
      simp [setThread, free, Runner.holds]
  | sizedEmpty found _ => exact guarded.turn found rfl rfl rfl enough rfl
  | sized found positive =>
    have nobody : s.threads.countP Runner.popping = 0 :=
      guarded.sole found rfl (fun thread => by cases thread <;> simp [Runner.popping, Runner.holds])
        rfl
    refine guarded.turn found rfl rfl rfl ?_ rfl
    have some_task : 0 < s.queue.length := Nat.pos_of_ne_zero fun empty => by
      rw [dataQueueSize, empty] at positive
      exact Nat.lt_irrefl _ positive
    rw [nobody]
    exact some_task
  | slept found =>
    refine guarded.turn found rfl rfl ?_ enough rfl
    simp [setThread, guarded.locked found rfl, Runner.holds]
  | poppedEmpty found empty => exact (guarded.found found empty).elim
  | @popped task rest found queue =>
    refine guarded.turn found rfl rfl rfl ?_ rfl
    rw [queue] at enough
    exact enough
  | unlocked found =>
    refine guarded.turn found rfl rfl ?_ enough rfl
    simp [setThread, guarded.locked found rfl, Runner.holds]
  | unlockedEmpty found => exact (guarded.absurd found rfl).elim
  | unlockedAgain found => exact (guarded.absurd found rfl).elim
  | called found _ => exact guarded.turn found rfl rfl rfl enough rfl
  | returned found => exact guarded.turn found rfl rfl rfl enough rfl

/-- So does an adder. -/
theorem Guarded.addtask (guarded : s.Guarded) (moved : AdderStep s a woken s') : s'.Guarded := by
  cases moved with
  | locked found free =>
    refine guarded.add found rfl rfl ?_ le_rfl
    simp [setAdder, free, Adder.holds]
  | pushed found =>
    refine guarded.add found rfl rfl rfl ?_
    simp [setAdder]
  | unlocked found =>
    refine guarded.add found rfl rfl ?_ le_rfl
    simp [setAdder, guarded.lockedByAdder found rfl, Adder.holds]
  | @signalled t found at_blocked =>
    have woken : (s.setThread t .woken).Guarded :=
      guarded.turn at_blocked rfl rfl rfl guarded.enough rfl
    exact woken.add found rfl rfl rfl le_rfl
  | unheard found _ => exact guarded.add found rfl rfl rfl le_rfl

/-- Every step of a run in which the pool is not destroyed keeps the lock safe. -/
theorem Guarded.step {l : PoolLabel Cb Arg} (guarded : s.Guarded) (standing : Standing s l)
    (stepped : s.step l = some s') : s'.Guarded := by
  cases l with
  | thread t =>
    obtain ⟨next, pc, moved, _, rfl⟩ := runnerStep_cases stepped
    exact (guarded.run moved).misuse _
  | wake t =>
    obtain ⟨at_blocked, rfl⟩ := wake_cases stepped
    exact guarded.turn at_blocked rfl rfl rfl guarded.enough rfl
  | addtask a cb arg task =>
    obtain ⟨idle, _, rfl⟩ := addtaskCall_cases stepped
    exact guarded.add idle rfl rfl rfl le_rfl
  | adder a woken => exact guarded.addtask (threadpoolAddtask_cases stepped)
  | destroyer woken => exact standing.elim

/-! ## Wake-ups -/

/-- No thread is blocked that has not been told of the tasks in the queue. -/
structure Wakeful (s : Threadpool Cb Arg) : Prop where
  /-- The number of tasks does not overflow. -/
  room : s.queue.length < 2 ^ 32
  /-- A thread that is about to wait saw an empty queue. -/
  waiting : 0 < s.threads.countP Runner.waiting → s.queue = []
  /-- While a thread is blocked, somebody signals or comes for every task. -/
  awake : 0 < s.threads.countP Runner.asleep →
    s.queue.length ≤ s.adders.countP Adder.pending + s.threads.countP Runner.coming

/-- A pool thread that moves, with the tasks it comes for accounted for. -/
theorem Wakeful.turn {old new : Runner} (wakeful : s.Wakeful) (found : s.threads[t]? = some old)
    (threads : s'.threads = s.threads.set t new) (adders : s'.adders = s.adders)
    (fewer : s'.queue.length ≤ s.queue.length)
    (waits : new.waiting = true ∨ new.asleep = true → s'.queue = [])
    (comes : s'.queue = [] ∨
      s'.queue.length + old.coming.toNat ≤ s.queue.length + new.coming.toNat) : s'.Wakeful := by
  have waiting := Crew.countP_set found new Runner.waiting
  have asleep := Crew.countP_set found new Runner.asleep
  have coming := Crew.countP_set found new Runner.coming
  have empties : s.queue = [] → s'.queue = [] := fun empty =>
    List.length_eq_zero_iff.mp (Nat.le_zero.mp (by rwa [empty] at fewer))
  refine ⟨fewer.trans_lt wakeful.room, fun some_waiting => ?_, fun some_asleep => ?_⟩
  · rw [threads] at some_waiting
    cases here : new.waiting with
    | true => exact waits (.inl here)
    | false =>
      rw [here, Bool.toNat_false] at waiting
      exact empties (wakeful.waiting (by omega))
  · rw [threads] at some_asleep
    rw [threads, adders]
    rcases comes with empty | comes
    · rw [empty]
      exact Nat.zero_le _
    cases here : new.asleep with
    | true =>
      rw [waits (.inr here)]
      exact Nat.zero_le _
    | false =>
      rw [here, Bool.toNat_false] at asleep
      have before := wakeful.awake (by omega)
      omega

/-- An adder that moves, with what it has pushed and not signalled accounted for. -/
theorem Wakeful.add {old new : Adder} (wakeful : s.Wakeful) (found : s.adders[a]? = some old)
    (threads : s'.threads = s.threads) (adders : s'.adders = s.adders.set a new)
    (room : s'.queue.length < 2 ^ 32)
    (waiting : 0 < s.threads.countP Runner.waiting → s'.queue = [])
    (pending : 0 < s.threads.countP Runner.asleep →
      s'.queue.length + old.pending.toNat ≤ s.queue.length + new.pending.toNat) : s'.Wakeful := by
  have counted := Crew.countP_set found new Adder.pending
  refine ⟨room, ?_, fun some_asleep => ?_⟩
  · rw [threads]
    exact waiting
  · rw [threads] at some_asleep
    rw [threads, adders]
    have before := wakeful.awake some_asleep
    have balance := pending some_asleep
    omega

/-- A pool thread tells nobody too little. -/
theorem Wakeful.run (wakeful : s.Wakeful) (guarded : s.Guarded) (moved : RunnerStep s t s') :
    s'.Wakeful := by
  have never : ∀ {new : Runner}, new.waiting = false → new.asleep = false → ∀ {queue : List Nat},
      new.waiting = true ∨ new.asleep = true → queue = [] := by
    intro new awake up queue down
    rw [awake, up] at down
    exact (down.elim Bool.false_ne_true Bool.false_ne_true).elim
  cases moved with
  | locked at_lock _ =>
    rcases at_lock with found | found
    · exact wakeful.turn found rfl rfl le_rfl (never rfl rfl) (.inr (Nat.le_succ _))
    · exact wakeful.turn found rfl rfl le_rfl (never rfl rfl) (.inr le_rfl)
  | sizedEmpty found zero =>
    have empty : s.queue = [] := by
      rw [dataQueueSize, Nat.mod_eq_of_lt wakeful.room] at zero
      exact List.length_eq_zero_iff.mp zero
    exact wakeful.turn found rfl rfl le_rfl (fun _ => empty) (.inl empty)
  | sized found _ => exact wakeful.turn found rfl rfl le_rfl (never rfl rfl) (.inr le_rfl)
  | slept found =>
    have empty : s.queue = [] := wakeful.waiting (Crew.countP_pos found rfl)
    exact wakeful.turn found rfl rfl le_rfl (fun _ => empty) (.inl empty)
  | poppedEmpty found empty => exact (guarded.found found empty).elim
  | @popped task rest found queue =>
    have shorter : s.queue.length = rest.length + 1 := congrArg List.length queue
    refine wakeful.turn found rfl rfl ?_ (never rfl rfl) (.inr ?_)
    · exact shorter ▸ Nat.le_succ _
    · exact le_of_eq shorter.symm
  | unlocked found => exact wakeful.turn found rfl rfl le_rfl (never rfl rfl) (.inr le_rfl)
  | called found _ => exact wakeful.turn found rfl rfl le_rfl (never rfl rfl) (.inr le_rfl)
  | returned found => exact wakeful.turn found rfl rfl le_rfl (never rfl rfl) (.inr le_rfl)
  | unlockedEmpty found => exact (guarded.absurd found rfl).elim
  | unlockedAgain found => exact (guarded.absurd found rfl).elim

/-- An adder signals for the task it has pushed. -/
theorem Wakeful.addtask (wakeful : s.Wakeful) (guarded : s.Guarded)
    (room : s.adders[a]?.any Adder.pushing = true → s.queue.length + 1 < 2 ^ 32)
    (moved : AdderStep s a woken s') : s'.Wakeful := by
  cases moved with
  | locked found _ =>
    exact wakeful.add found rfl rfl wakeful.room wakeful.waiting fun _ => le_rfl
  | @pushed task _ found =>
    have nobody : s.threads.countP Runner.waiting = 0 :=
      guarded.alone found rfl fun thread => by cases thread <;> simp [Runner.waiting, Runner.holds]
    have longer : (s.queue ++ [task]).length = s.queue.length + 1 := List.length_append
    refine wakeful.add found rfl rfl ?_ (fun some_waiting => ?_) fun _ => ?_
    · refine longer ▸ room ?_
      rw [found]
      rfl
    · rw [nobody] at some_waiting
      exact (Nat.lt_irrefl 0 some_waiting).elim
    · exact le_of_eq longer
  | unlocked found =>
    exact wakeful.add found rfl rfl wakeful.room wakeful.waiting fun _ => le_rfl
  | @signalled t found at_blocked =>
    -- the thread that is woken takes the adder's place
    have waiting : (s.threads.set t .woken).countP Runner.waiting =
        s.threads.countP Runner.waiting := Crew.countP_set at_blocked .woken Runner.waiting
    have asleep : (s.threads.set t .woken).countP Runner.asleep + 1 =
        s.threads.countP Runner.asleep := Crew.countP_set at_blocked .woken Runner.asleep
    have coming : (s.threads.set t .woken).countP Runner.coming =
        s.threads.countP Runner.coming + 1 := Crew.countP_set at_blocked .woken Runner.coming
    have pending : (s.adders.set a .idle).countP Adder.pending + 1 =
        s.adders.countP Adder.pending := Crew.countP_set found .idle Adder.pending
    have before := wakeful.awake (by omega)
    refine ⟨wakeful.room, fun some_waiting => wakeful.waiting (waiting ▸ some_waiting), fun _ => ?_⟩
    show s.queue.length ≤ (s.adders.set a .idle).countP Adder.pending +
      (s.threads.set t .woken).countP Runner.coming
    omega
  | unheard found nobody =>
    have up : s.threads.countP Runner.asleep = 0 := by
      refine List.countP_eq_zero.mpr fun thread member asleep => ?_
      cases thread <;> first | exact nobody member | exact Bool.false_ne_true asleep
    refine wakeful.add found rfl rfl wakeful.room wakeful.waiting fun some_asleep => ?_
    rw [up] at some_asleep
    exact (Nat.lt_irrefl 0 some_asleep).elim

/-- What is remembered of misuses does not matter. -/
theorem Wakeful.misuse (wakeful : s.Wakeful) (misused : Bool) :
    Wakeful { s with misused } := ⟨wakeful.room, wakeful.waiting, wakeful.awake⟩

/-- A run whose pushes are roomy is one in which the pool is not destroyed. -/
theorem Roomy.standing {l : PoolLabel Cb Arg} (roomy : Roomy s l) : Standing s l := by
  cases l with
  | destroyer woken => exact roomy
  | _ => trivial

/-- Every roomy step leaves no blocked thread untold. -/
theorem Wakeful.step {l : PoolLabel Cb Arg} (wakeful : s.Wakeful) (guarded : s.Guarded)
    (roomy : Roomy s l) (stepped : s.step l = some s') : s'.Wakeful := by
  cases l with
  | thread t =>
    obtain ⟨next, pc, moved, _, rfl⟩ := runnerStep_cases stepped
    exact (wakeful.run guarded moved).misuse _
  | wake t =>
    obtain ⟨at_blocked, rfl⟩ := wake_cases stepped
    exact wakeful.turn at_blocked rfl rfl le_rfl (by simp [Runner.waiting, Runner.asleep])
      (.inr (Nat.le_succ _))
  | addtask a cb arg task =>
    obtain ⟨idle, _, rfl⟩ := addtaskCall_cases stepped
    exact wakeful.add idle rfl rfl wakeful.room wakeful.waiting fun _ => le_rfl
  | adder a woken => exact wakeful.addtask guarded roomy (threadpoolAddtask_cases stepped)
  | destroyer woken => exact roomy.elim

/-! ## Tasks -/

/-- Where every task is. -/
structure Tracked (s : Threadpool Cb Arg) : Prop where
  /-- Tasks are popped in the order of their pushes. -/
  fifo : s.pushed = s.popped.map Prod.snd ++ s.queue
  /-- No task is pushed twice, or by two adders. -/
  once : (s.adders.filterMap Adder.task ++ s.pushed).Nodup
  /-- Every task is allocated. -/
  allocated : ∀ task ∈ s.adders.filterMap Adder.task ++ s.pushed, (s.tasks task).isSome = true
  /-- A task that was popped is called, or about to be. -/
  calls : (s.popped.map Prod.snd).Perm
    (s.threads.filterMap Runner.task ++ s.called.map Invocation.task)
  /-- The thread about to call a task popped it. -/
  hands : ∀ (t : Nat) thread task, s.threads[t]? = some thread → thread.task = some task →
    (t, task) ∈ s.popped
  /-- The thread that called a task popped it, and called what the task says. -/
  own : ∀ call ∈ s.called, (call.thread, call.task) ∈ s.popped ∧
    s.tasks call.task = some ⟨call.cb, call.arg⟩

/-- What is remembered of misuses does not matter. -/
theorem Tracked.misuse (tracked : s.Tracked) (misused : Bool) : Tracked { s with misused } :=
  ⟨tracked.fifo, tracked.once, tracked.allocated, tracked.calls, tracked.hands, tracked.own⟩

/-- Hands after a thread moved. -/
theorem hands_set {threads : List Runner} {new : Runner} {popped popped' : List (Nat × Nat)}
    (hands : ∀ (t : Nat) thread task, threads[t]? = some thread → thread.task = some task →
      (t, task) ∈ popped) (more : popped ⊆ popped')
    (own : ∀ task, new.task = some task → (t, task) ∈ popped') :
    ∀ (u : Nat) thread task, (threads.set t new)[u]? = some thread → thread.task = some task →
      (u, task) ∈ popped' := by
  intro u thread task found held
  by_cases same : t = u
  · subst same
    obtain ⟨inside, _⟩ := List.getElem?_eq_some_iff.mp found
    rw [List.length_set] at inside
    rw [List.getElem?_set_self inside] at found
    obtain rfl := Option.some.inj found
    exact own task held
  · rw [List.getElem?_set_ne same] at found
    exact more (hands u thread task found held)

/-- A pool thread that moves with the same task, or with none as before. -/
theorem Tracked.turn {old new : Runner} (tracked : s.Tracked) (found : s.threads[t]? = some old)
    (locked : Bool) (same : new.task = old.task) :
    Tracked ({ s with locked }.setThread t new) := by
  refine { tracked with calls := ?_, hands := ?_ }
  · exact tracked.calls.trans
      ((Crew.filterMap_set_same found Runner.task same).symm.append_right _)
  · exact hands_set tracked.hands (List.Subset.refl _) fun task held =>
      tracked.hands t old task found (same ▸ held)

/-- A pool thread pops a task and calls what it popped. -/
theorem Tracked.run (tracked : s.Tracked) (moved : RunnerStep s t s') : s'.Tracked := by
  cases moved with
  | locked at_lock _ =>
    rcases at_lock with found | found
    · exact tracked.turn found true rfl
    · exact tracked.turn found true rfl
  | sizedEmpty found _ => exact tracked.turn found s.locked rfl
  | sized found _ => exact tracked.turn found s.locked rfl
  | slept found => exact tracked.turn found false rfl
  | poppedEmpty found _ => exact tracked.turn found s.locked rfl
  | @popped task rest found queue =>
    refine { tracked with fifo := ?_, calls := ?_, hands := ?_, own := ?_ }
    · rw [tracked.fifo, queue]
      simp [setThread]
    · have taken : ((s.threads.set t (.unlock (some task))).filterMap Runner.task).Perm
          (task :: s.threads.filterMap Runner.task) :=
        Crew.filterMap_set_take found Runner.task rfl rfl
      have more : (s.popped.map Prod.snd ++ [task]).Perm
          (task :: (s.threads.filterMap Runner.task ++ s.called.map Invocation.task)) :=
        (List.perm_append_singleton _ _).trans (tracked.calls.cons task)
      rw [← List.map_singleton (f := Prod.snd) (a := (t, task)), ← List.map_append] at more
      exact more.trans (taken.symm.append_right _)
    · exact hands_set tracked.hands (List.subset_append_left _ _) fun task' held => by
        obtain rfl : task = task' := Option.some.inj held
        exact List.mem_append_right _ List.mem_cons_self
    · exact fun call member => (tracked.own call member).imp_left
        (List.mem_append_left _)
  | unlocked found => exact tracked.turn found false rfl
  | unlockedEmpty found => exact tracked.turn found false rfl
  | unlockedAgain found => exact tracked.turn found false rfl
  | @called task threadpoolTask found given =>
    have popped := tracked.hands t _ task found rfl
    refine { tracked with calls := ?_, hands := ?_, own := ?_ }
    · have dropped : (s.threads.filterMap Runner.task).Perm
          (task :: (s.threads.set t (.running task)).filterMap Runner.task) :=
        Crew.filterMap_set_drop found Runner.task rfl rfl
      have last := (List.perm_append_singleton task ((s.threads.set t (.running task)).filterMap
        Runner.task ++ s.called.map Invocation.task)).symm
      rw [List.append_assoc] at last
      show (s.popped.map Prod.snd).Perm (_ ++ (s.called ++ [_]).map Invocation.task)
      rw [List.map_append]
      exact (tracked.calls.trans (dropped.append_right _)).trans last
    · exact hands_set tracked.hands (List.Subset.refl _) fun _ held => by cases held
    · intro call member
      rcases List.mem_append.mp member with before | now
      · exact tracked.own call before
      · obtain rfl := List.mem_singleton.mp now
        exact ⟨popped, given⟩
  | returned found => exact tracked.turn found s.locked rfl

/-- An adder that moves with the same task, or with none as before. -/
theorem Tracked.add {old new : Adder} (tracked : s.Tracked) (found : s.adders[a]? = some old)
    (locked : Bool) (same : new.task = old.task) :
    Tracked ({ s with locked }.setAdder a new) := by
  have carried := (Crew.filterMap_set_same found Adder.task same).append_right s.pushed
  refine { tracked with once := ?_, allocated := ?_ }
  · exact carried.nodup_iff.mpr tracked.once
  · exact fun task member => tracked.allocated task (carried.mem_iff.mp member)

/-- A new task is nobody's. -/
theorem Tracked.create {cb : Cb} {arg : Arg} {task : Nat} (tracked : s.Tracked)
    (idle : s.adders[a]? = some .idle) (free : s.tasks task = none) :
    Tracked ({ s with tasks := Function.update s.tasks task (some ⟨cb, arg⟩) }.setAdder a
      (.lock task)) := by
  have taken : ((s.adders.set a (.lock task)).filterMap Adder.task ++ s.pushed).Perm
      (task :: s.adders.filterMap Adder.task ++ s.pushed) :=
    (Crew.filterMap_set_take idle Adder.task rfl rfl).append_right s.pushed
  have distinct : ∀ other, (s.tasks other).isSome = true → other ≠ task := by
    rintro _ known rfl
    rw [free] at known
    exact Bool.false_ne_true known
  have kept : ∀ other, other ≠ task → Function.update s.tasks task (some ⟨cb, arg⟩) other =
      s.tasks other := fun other apart => Function.update_of_ne apart _ _
  refine { tracked with once := ?_, allocated := ?_, own := ?_ }
  · refine taken.nodup_iff.mpr (List.nodup_cons.mpr ⟨fun member => ?_, tracked.once⟩)
    exact distinct task (tracked.allocated task member) rfl
  · intro other member
    rcases List.mem_cons.mp (taken.mem_iff.mp member) with rfl | before
    · show (Function.update s.tasks other _ other).isSome = true
      rw [Function.update_self]
      rfl
    · have known := tracked.allocated other before
      show (Function.update s.tasks task _ other).isSome = true
      rw [kept other (distinct other known)]
      exact known
  · intro call member
    obtain ⟨popped, given⟩ := tracked.own call member
    refine ⟨popped, ?_⟩
    have known : (s.tasks call.task).isSome = true := by
      rw [given]
      rfl
    exact (kept call.task (distinct call.task known)).trans given

/-- An adder pushes its task. -/
theorem Tracked.push {task : Nat} (tracked : s.Tracked) (found : s.adders[a]? = some (.push task)) :
    Tracked ({ s with queue := s.queue ++ [task], pushed := s.pushed ++ [task] }.setAdder a
      .unlock) := by
  have dropped : (s.adders.filterMap Adder.task).Perm
      (task :: (s.adders.set a .unlock).filterMap Adder.task) :=
    Crew.filterMap_set_drop found Adder.task rfl rfl
  have moved : ((s.adders.set a .unlock).filterMap Adder.task ++ (s.pushed ++ [task])).Perm
      (s.adders.filterMap Adder.task ++ s.pushed) := by
    rw [← List.append_assoc]
    exact (List.perm_append_singleton _ _).trans (dropped.symm.append_right s.pushed)
  refine { tracked with fifo := ?_, once := ?_, allocated := ?_ }
  · show s.pushed ++ [task] = s.popped.map Prod.snd ++ (s.queue ++ [task])
    rw [tracked.fifo, List.append_assoc]
  · exact moved.nodup_iff.mpr tracked.once
  · exact fun other member => tracked.allocated other (moved.mem_iff.mp member)

/-- Every step of a run in which the pool is not destroyed keeps track of the tasks. -/
theorem Tracked.step {l : PoolLabel Cb Arg} (tracked : s.Tracked) (standing : Standing s l)
    (stepped : s.step l = some s') : s'.Tracked := by
  cases l with
  | thread t =>
    obtain ⟨next, pc, moved, _, rfl⟩ := runnerStep_cases stepped
    exact (tracked.run moved).misuse _
  | wake t =>
    obtain ⟨at_blocked, rfl⟩ := wake_cases stepped
    exact tracked.turn at_blocked s.locked rfl
  | addtask a cb arg task =>
    obtain ⟨idle, free, rfl⟩ := addtaskCall_cases stepped
    exact tracked.create idle free
  | adder a woken =>
    cases threadpoolAddtask_cases stepped with
    | locked found _ => exact tracked.add found true rfl
    | pushed found => exact tracked.push found
    | unlocked found => exact tracked.add found false rfl
    | signalled found at_blocked =>
      have woken : (s.setThread _ .woken).Tracked := tracked.turn at_blocked s.locked rfl
      exact woken.add found s.locked rfl
    | unheard found _ => exact tracked.add found s.locked rfl
  | destroyer woken => exact standing.elim

/-! ## Reachable states -/

/-- A new pool is safe. -/
theorem Started.sound (started : s.Started) : s.Guarded ∧ s.Wakeful ∧ s.Tracked := by
  obtain ⟨thread_count, adders, rfl⟩ := started
  have nobody : ∀ strong : Runner → Bool, strong .lock = false →
      (List.replicate thread_count Runner.lock).countP strong = 0 := by
    intro strong lacks
    simp [List.countP_replicate, lacks]
  have noAdder : (List.replicate adders Adder.idle).countP Adder.holds = 0 := by
    simp [List.countP_replicate, Adder.holds]
  have noHands : (List.replicate thread_count Runner.lock).filterMap Runner.task = [] :=
    List.filterMap_eq_nil_iff.mpr fun thread member => by
      rw [List.eq_of_mem_replicate member]
      rfl
  have noTasks : (List.replicate adders Adder.idle).filterMap Adder.task = [] :=
    List.filterMap_eq_nil_iff.mpr fun adder member => by
      rw [List.eq_of_mem_replicate member]
      rfl
  refine ⟨⟨?_, ?_, ?_⟩, ⟨Nat.two_pow_pos 32, fun _ => rfl, fun _ => Nat.zero_le _⟩,
    ⟨rfl, ?_, ?_, ?_, ?_, fun _ member => (List.not_mem_nil member).elim⟩⟩
  · simp only [Threadpool.create, nobody Runner.holds rfl, noAdder]
    rfl
  · simp only [Threadpool.create, nobody Runner.popping rfl]
    exact le_rfl
  · intro thread member
    rw [List.eq_of_mem_replicate member]
    rfl
  · simp [Threadpool.create, noTasks]
  · simp [Threadpool.create, noTasks]
  · simp [Threadpool.create, noHands]
  · intro t thread task found held
    rw [List.eq_of_mem_replicate (List.mem_of_getElem? found)] at held
    cases held

/-- What is said of the tasks and threads of a pool. -/
structure Dispatched (s : Threadpool Cb Arg) : Prop where
  /-- No thread has left its loop. -/
  looping : .exited ∉ s.threads
  /-- A pop finds a task. -/
  found : ∀ t : Nat, s.threads[t]? = some .pop → (dataQueuePop s.queue).1.isSome = true
  /-- Tasks are popped in the order of their pushes. -/
  fifo : s.pushed = s.popped.map Prod.snd ++ s.queue
  /-- No task is pushed twice. -/
  once : s.pushed.Nodup
  /-- No task is called twice. -/
  calledOnce : (s.called.map Invocation.task).Nodup
  /-- Who calls a task popped it, and calls what the task says. -/
  own : ∀ call ∈ s.called, (call.thread, call.task) ∈ s.popped ∧
    s.tasks call.task = some ⟨call.cb, call.arg⟩
  /-- Who popped a task has called it, or comes to. -/
  calls : ∀ t task, (t, task) ∈ s.popped →
    (∃ call ∈ s.called, call.thread = t ∧ call.task = task) ∨
      s.threads[t]? = some (.unlock (some task)) ∨ s.threads[t]? = some (.call task)

/-- When no adder is between its push and its signal, and no thread on its way to its pop, be it
woken or with the lock, a thread that is blocked has nothing to do. -/
def Told (s : Threadpool Cb Arg) : Prop :=
  (∀ adder ∈ s.adders, adder.pending = false) → (∀ thread ∈ s.threads, thread.coming = false) →
    .blocked ∈ s.threads → s.queue = []

/-- Safe pools dispatch their tasks. -/
theorem Tracked.dispatched (tracked : s.Tracked) (guarded : s.Guarded) : s.Dispatched := by
  have once : s.pushed.Nodup := (List.nodup_append'.mp tracked.once).2.1
  have poppedOnce : (s.popped.map Prod.snd).Nodup := by
    have parts := once
    rw [tracked.fifo] at parts
    exact (List.nodup_append'.mp parts).1
  have same : ∀ {t u task : Nat}, (t, task) ∈ s.popped → (u, task) ∈ s.popped → u = t :=
    fun here there => congrArg Prod.fst (List.inj_on_of_nodup_map poppedOnce there here rfl)
  refine ⟨fun exited => ?_, fun t at_pop => ?_, tracked.fifo, once, ?_, tracked.own,
    fun t task popped => ?_⟩
  · exact Bool.false_ne_true (guarded.looping _ exited)
  · have some_task := guarded.found at_pop
    cases queue : s.queue with
    | nil => exact absurd queue some_task
    | cons task rest => rfl
  · exact (List.nodup_append'.mp (tracked.calls.nodup_iff.mp poppedOnce)).2.1
  · have somewhere := tracked.calls.mem_iff.mp (List.mem_map_of_mem (f := Prod.snd) popped)
    rcases List.mem_append.mp somewhere with hand | called
    · obtain ⟨thread, member, held⟩ := List.mem_filterMap.mp hand
      obtain ⟨u, found⟩ := List.mem_iff_getElem?.mp member
      obtain rfl := same popped (tracked.hands u thread task found held)
      right
      cases thread with
      | unlock taken =>
        cases held
        exact .inl found
      | call taken =>
        cases held
        exact .inr found
      | _ => cases held
    · obtain ⟨call, member, named⟩ := List.mem_map.mp called
      obtain ⟨there, _⟩ := tracked.own call member
      rw [named] at there
      exact .inl ⟨call, member, same popped there, named⟩

/-- In safe pools blocked threads are told of tasks. -/
theorem Wakeful.told (wakeful : s.Wakeful) : s.Told := by
  intro quiet settled blocked
  have pending : s.adders.countP Adder.pending = 0 :=
    List.countP_eq_zero.mpr fun adder member => by simp [quiet adder member]
  have coming : s.threads.countP Runner.coming = 0 :=
    List.countP_eq_zero.mpr fun thread member => by simp [settled thread member]
  have awake := wakeful.awake (List.countP_pos_iff.mpr ⟨_, blocked, rfl⟩)
  rw [pending, coming] at awake
  exact List.length_eq_zero_iff.mp (Nat.le_zero.mp awake)

/-- In every run of a pool that is not destroyed, tasks are popped in order and each is called once
at most, by the thread that popped it; no pop answers `NULL` and no thread returns. If the number
of tasks never overflows, no wake-up is lost. -/
theorem tasks_dispatched :
    (∀ s : Threadpool Cb Arg, Reach step Standing Started s → s.Dispatched) ∧
      ∀ s : Threadpool Cb Arg, Reach step Roomy Started s → s.Told := by
  constructor
  · intro s reached
    have sound : s.Guarded ∧ s.Tracked := by
      apply reached.invariant
      · exact fun s started => ⟨started.sound.1, started.sound.2.2⟩
      · exact fun s l s' sound standing stepped =>
          ⟨sound.1.step standing stepped, sound.2.step standing stepped⟩
    exact sound.2.dispatched sound.1
  · intro s reached
    have sound : s.Guarded ∧ s.Wakeful := by
      apply reached.invariant
      · exact fun s started => ⟨started.sound.1, started.sound.2.1⟩
      · exact fun s l s' sound roomy stepped =>
          ⟨sound.1.step roomy.standing stepped, sound.2.step sound.1 roomy stepped⟩
    exact sound.2.told

/-! ## Runs -/

namespace Sample

/-- A thread finds no task and goes to wait. -/
def waiting (t : Nat) : List (PoolLabel Nat Nat) := [.thread t, .thread t, .thread t]

/-- A task is added, up to its signal. -/
def adding (task : Nat) : List (PoolLabel Nat Nat) :=
  [.addtask 0 1 2 task, .adder 0 none, .adder 0 none, .adder 0 none]

end Sample

/-- A thread is woken for a task that another, which came by itself, has taken, and waits again. -/
theorem tasks_dispatched_stolen : ∃ s : Threadpool Nat Nat, s.Dispatched ∧
    s.called = [⟨1, 7, 1, 2⟩] ∧ .blocked ∈ s.threads ∧ s.queue = [] := by
  have completed : (runAllowed step Roomy (create 2 1) (Sample.waiting 0 ++ Sample.adding 7 ++
      [.thread 1, .thread 1, .thread 1, .thread 1, .thread 1, .adder 0 (some 0)] ++
        Sample.waiting 0)).map (fun s => s.called == [⟨1, 7, 1, 2⟩] &&
          s.threads == [.blocked, .running 7] && s.adders == [.idle]) = some true := by
    decide +kernel
  obtain ⟨s, reached, passed⟩ := Reach.exists_of_run (create_started 2 1) completed
  simp only [Bool.and_eq_true, beq_iff_eq] at passed
  obtain ⟨⟨called, threads⟩, adders⟩ := passed
  have blocked : .blocked ∈ s.threads := by
    rw [threads]
    exact List.mem_cons_self
  refine ⟨s, tasks_dispatched.1 s (reached.weaken fun _ _ => Roomy.standing), called, blocked,
    tasks_dispatched.2 s reached ?_ ?_ blocked⟩
  · rw [adders]
    decide
  · rw [threads]
    decide

/-- A pool of one thread that has not begun yet comes to hold any number of tasks. -/
theorem filled (n : Nat) : ∃ s : Threadpool Nat Nat, Reach step Standing Started s ∧
    s.threads = [.lock] ∧ s.adders = [.idle] ∧ s.locked = false ∧ s.queue.length = n ∧
      ∀ task, n ≤ task → s.tasks task = none := by
  induction n with
  | zero => exact ⟨create 1 1, .refl ⟨1, 1, rfl⟩, rfl, rfl, rfl, rfl, fun _ _ => rfl⟩
  | succ n ih =>
    obtain ⟨s, reached, threads, adders, free, length, unused⟩ := ih
    let s' : Threadpool Nat Nat := { s with
      tasks := Function.update s.tasks n (some ⟨1, 2⟩)
      queue := s.queue ++ [n]
      pushed := s.pushed ++ [n] }
    have standing : ∀ l ∈ Sample.adding n ++ [.adder 0 none], ∀ s : Threadpool Nat Nat,
        Standing s l := by
      simp [Sample.adding, Standing]
    have completed : Basis.run step s (Sample.adding n ++ [.adder 0 none]) = some s' := by
      obtain ⟨_, _, _, _, _, _, tasks, _, _, _, _, _⟩ := s
      simp only at threads adders free
      subst threads adders free
      have fresh : tasks n = none := unused n le_rfl
      simp [Sample.adding, Basis.run, step, addtaskCall, threadpoolAddtask, signal, setAdder,
        dataQueuePush, fresh, s']
    refine ⟨s', reached.of_run standing completed, threads, adders, free, ?_, fun task more => ?_⟩
    · exact List.length_append.trans (congrArg (· + 1) length)
    · exact (Function.update_of_ne (Nat.ne_of_gt more) _ _).trans (unused task (Nat.le_of_lt more))

/-- Two threads wait and one of them is woken for a task: when it has the lock back and not popped
yet, the task is in the queue and the other thread blocked. The same comes of so many tasks that
their number reads as zero, with no thread on its way. -/
theorem wakeup_unseen :
    (¬∀ s : Threadpool Nat Nat, Reach step Roomy Started s →
      (∀ adder ∈ s.adders, adder.pending = false) → .woken ∉ s.threads → .blocked ∈ s.threads →
        s.queue = []) ∧
      ¬∀ s : Threadpool Nat Nat, Reach step Standing Started s → s.Told := by
  constructor
  · intro empty
    have completed : (runAllowed step Roomy (create 2 1) (Sample.waiting 0 ++ Sample.waiting 1 ++
        Sample.adding 7 ++ [.adder 0 (some 0), .thread 0])).map (fun s =>
          s.threads == [.size, .blocked] && s.adders == [.idle] && s.queue == [7]) = some true := by
      decide +kernel
    obtain ⟨s, reached, passed⟩ := Reach.exists_of_run (create_started 2 1) completed
    simp only [Bool.and_eq_true, beq_iff_eq] at passed
    obtain ⟨⟨threads, adders⟩, queue⟩ := passed
    have none := empty s reached (by rw [adders]; decide) (by rw [threads]; decide)
      (by rw [threads]; decide)
    rw [queue] at none
    cases none
  · intro told
    obtain ⟨s, reached, threads, adders, free, length, _⟩ := filled (2 ^ 32)
    have standing : ∀ l ∈ Sample.waiting 0, ∀ s : Threadpool Nat Nat, Standing s l := by
      simp [Sample.waiting, Standing]
    have zero : dataQueueSize s.queue = 0 := by rw [dataQueueSize, length, Nat.mod_self]
    obtain ⟨s', completed, threads', adders', queue'⟩ : ∃ s', Basis.run step s (Sample.waiting 0) =
        some s' ∧ s'.threads = [.blocked] ∧ s'.adders = [.idle] ∧ s'.queue = s.queue := by
      obtain ⟨_, _, _, _, _, queue, _, _, _, _, _, _⟩ := s
      simp only at threads adders free zero
      subst threads adders free
      simp [Sample.waiting, Basis.run, step, runnerStep, threadpoolRun, setThread, zero]
    have empty := told s' (reached.of_run standing completed) (by rw [adders']; decide)
      (by rw [threads']; decide) (by rw [threads']; decide)
    rw [queue'] at empty
    rw [empty] at length
    exact absurd length (Nat.two_pow_pos 32).ne

end Threadpool

end EpollNet
