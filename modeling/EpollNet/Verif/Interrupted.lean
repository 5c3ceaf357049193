import EpollNet.Verif.ReceiveQueue

/-!
# Workers whose wait is interrupted

`locker_semwait` reports an interrupted wait as zero and `Server_Process` does not look at the
result, so a worker may read the queue's size without a token. The size is read without the
lock and the pop behind it finds the queue as the other workers left it. A worker that passes the
test while the queue holds more items than there are workers between their test and their pop is
sure of an item; runs in which every wait takes its token are of that kind.
-/

namespace EpollNet

open EpollNet.Basis

/-- The worker saw a size and has not popped. -/
def Worker.popping : Worker → Bool
  | .pop => true
  | .wait | .size | .call _ | .running _ | .free _ | .exited => false

/-- A worker sees a size only while there are more items than workers about to pop. -/
def Spared (s : State) : Label → Prop
  | .worker w => s.workers[w]? = some .size → 0 < dataQueueSize s.srv.rqueue →
      s.workers.countP Worker.popping < s.srv.rqueue.length
  | _ => True

instance (s : State) (l : Label) : Decidable (Spared s l) :=
  match l with
  | .worker w => inferInstanceAs (Decidable (s.workers[w]? = some .size →
      0 < dataQueueSize s.srv.rqueue → s.workers.countP Worker.popping < s.srv.rqueue.length))
  | .wait _ | .test | .accept _ | .sockopt _ | .read _ | .push | .post | .write _ | .arrive _
  | .send .. | .interrupt _ => inferInstanceAs (Decidable True)

variable {s s' : State}

/-! ## Who moves the queue -/

/-- The queue changes by the reactor's push or by a worker, and workers move by themselves or by
an interrupted wait. -/
theorem step_queue {l : Label} (stepped : Step s l s') :
    (s'.workers = s.workers ∧
      (s'.srv.rqueue = s.srv.rqueue ∨ ∃ item, s'.srv.rqueue = s.srv.rqueue ++ [item])) ∨
    (∃ w, l = .worker w ∧ WorkerStep s w s') ∨
    ∃ w, s.workers[w]? = some .wait ∧ s' = s.setWorker w .size := by
  cases stepped with
  | @acceptDropped fr input inc _ _ _ =>
    obtain ⟨kernel, _, dropped⟩ := s.srv.dropped_frame inc
    rw [dropped]
    exact .inl ⟨rfl, .inl rfl⟩
  | @acceptRefused fr input inc c rest nconn _ _ _ _ _ =>
    obtain ⟨kernel, obj, _, _, refused⟩ := s.srv.refused_frame inc c rest nconn
    rw [refused]
    exact .inl ⟨rfl, .inl rfl⟩
  | @readEnded fr c input _ _ _ =>
    obtain ⟨kernel, obj, _, _, ended⟩ := (s.srv.received c input).hangUp_frame c
    rw [ended]
    exact .inl ⟨rfl, .inl rfl⟩
  | @pushed fr c item _ => exact .inl ⟨rfl, .inr ⟨item, rfl⟩⟩
  | worker moved => exact .inr (.inl ⟨_, rfl, moved⟩)
  | interrupted at_wait => exact .inr (.inr ⟨_, at_wait, rfl⟩)
  | _ => exact .inl ⟨rfl, .inl rfl⟩

/-! ## The invariant -/

/-- There is an item for every worker that saw a size, and no worker left its loop. -/
structure Supplied (n : Nat) (s : State) : Prop where
  /-- Workers about to pop are no more than the items. -/
  enough : s.workers.countP Worker.popping ≤ s.srv.rqueue.length
  /-- No worker left its loop. -/
  working : .exited ∉ s.workers
  /-- No worker was lost. -/
  crew : s.workers.length = n

variable {n : Nat}

/-- A worker about to pop has an item. -/
theorem Supplied.found {w : Nat} (supplied : Supplied n s) (at_pop : s.workers[w]? = some .pop) :
    0 < s.srv.rqueue.length := by
  have counted : 0 < s.workers.countP Worker.popping := Crew.countP_pos at_pop rfl
  exact lt_of_lt_of_le counted supplied.enough

/-- A worker that moves within its loop, with the item it is sure of accounted for. -/
theorem Supplied.turn {w : Nat} {old new : Worker} (supplied : Supplied n s)
    (found : s.workers[w]? = some old) (workers : s'.workers = s.workers.set w new)
    (stays : new ≠ .exited)
    (items : s.workers.countP Worker.popping + new.popping.toNat ≤
      s'.srv.rqueue.length + old.popping.toNat) : Supplied n s' := by
  have moved := Crew.countP_set found new Worker.popping
  refine ⟨?_, fun exited => ?_, ?_⟩
  · rw [workers]
    omega
  · rw [workers] at exited
    rcases List.mem_or_eq_of_mem_set exited with before | same
    · exact supplied.working before
    · exact stays same.symm
  · rw [workers, List.length_set]
    exact supplied.crew

/-- A worker's step keeps every worker supplied, if it sees a size only with an item to spare. -/
theorem Supplied.worker {w : Nat} (supplied : Supplied n s) (spared : Spared s (.worker w))
    (moved : WorkerStep s w s') : Supplied n s' := by
  have enough := supplied.enough
  cases moved with
  | taken at_wait _ => exact supplied.turn at_wait rfl (by simp) enough
  | sized at_size positive =>
    have room := spared at_size positive
    exact supplied.turn at_size rfl (by simp) room
  | sizedEmpty at_size _ => exact supplied.turn at_size rfl (by simp) enough
  | poppedEmpty at_pop empty =>
    have positive := supplied.found at_pop
    rw [empty] at positive
    contradiction
  | @popped item rest at_pop queue =>
    rw [queue] at enough
    exact supplied.turn at_pop rfl (by simp) enough
  | called at_call => exact supplied.turn at_call rfl (by simp) enough
  | returned at_running => exact supplied.turn at_running rfl (by simp) enough
  | freed at_free => exact supplied.turn at_free rfl (by simp) enough

/-- So does every other step, an interrupted wait included. -/
theorem Supplied.step {l : Label} (supplied : Supplied n s) (spared : Spared s l)
    (stepped : Step s l s') : Supplied n s' := by
  have enough := supplied.enough
  rcases step_queue stepped with ⟨workers, queue⟩ | ⟨w, rfl, moved⟩ | ⟨w, at_wait, rfl⟩
  · refine ⟨?_, workers ▸ supplied.working, workers ▸ supplied.crew⟩
    rw [workers]
    rcases queue with same | ⟨item, more⟩
    · rw [same]
      exact enough
    · rw [more, List.length_append]
      exact Nat.le_add_right_of_le enough
  · exact supplied.worker spared moved
  · exact supplied.turn at_wait rfl (by simp) enough

/-- Runs in which every wait takes its token spare an item for every worker that sees a size. -/
theorem Balanced.spared (balanced : Balanced s) (l : Label) : Spared s l := by
  cases l with
  | worker w =>
    intro at_size _
    have tokens := balanced.tokens
    -- the worker's own token is not among those of the workers about to pop
    have apart : s.workers.countP Worker.popping < s.workers.countP Worker.holds := by
      have moved := Crew.countP_set at_size .wait Worker.holds
      have still := Crew.countP_set at_size .wait Worker.popping
      have less : (s.workers.set w .wait).countP Worker.popping ≤
          (s.workers.set w .wait).countP Worker.holds := by
        apply List.countP_mono_left
        intro pc _ popping
        cases pc <;> simp_all [Worker.popping, Worker.holds]
      simp only [Worker.holds, Worker.popping, Bool.toNat_true, Bool.toNat_false] at moved still
      omega
    omega
  | wait _ | test | accept _ | sockopt _ | read _ | push | post | write _ | arrive _ | send _ _ _ _
  | interrupt _ => trivial

/-! ## Runs -/

/-- No worker of the run has returned, and none is about to meet an empty queue. -/
structure Surviving (n : Nat) (s : State) : Prop where
  /-- No worker left its loop. -/
  working : .exited ∉ s.workers
  /-- There are as many workers as were started. -/
  crew : s.workers.length = n
  /-- No pop behind a passed test answers `NULL`. -/
  found : ∀ w : Nat, s.workers[w]? = some .pop → (dataQueuePop s.srv.rqueue).1.isSome = true

/-- In every run, interrupted waits included, in which a worker sees a size only while there are
more items than workers about to pop, no worker returns and no pop answers `NULL`. -/
theorem workers_survive {start : State} (started : Started start)
    (reached : Reach EpollNet.step Spared (· = start) s) : Surviving start.workers.length s := by
  have supplied : Supplied start.workers.length s := by
    apply reached.invariant
    · rintro _ rfl
      obtain ⟨k, workers⟩ := started.blank.workers
      refine ⟨?_, fun exited => ?_, rfl⟩
      · rw [workers, List.countP_replicate]
        exact Nat.zero_le _
      · rw [workers] at exited
        exact absurd (List.eq_of_mem_replicate exited) (by simp)
    · exact fun _ _ _ supplied spared stepped => supplied.step spared (step_cases stepped)
  refine ⟨supplied.working, supplied.crew, fun w at_pop => ?_⟩
  have positive := supplied.found at_pop
  cases queue : s.srv.rqueue with
  | nil =>
    rw [queue] at positive
    contradiction
  | cons _ _ => rfl

/-- Two items wait; a worker is interrupted, takes one of them without a token, and another worker
takes the other with one. -/
theorem workers_survive_interrupted : ∃ s, Surviving 5 s ∧ s.workers[0]? = some .wait ∧
    (popped s.history).length = 2 := by
  have completed : (runAllowed EpollNet.step Spared Sample.start
      (Sample.connecting 4 ++ Sample.delivering 4 [65] ++ Sample.delivering 4 [66] ++
        [.interrupt 0, .worker 0, .worker 0, .worker 1, .worker 1, .worker 1,
          .worker 0, .worker 0, .worker 0])).map
        (fun s => s.workers[0]? == some .wait && (popped s.history).length == 2) = some true := by
    decide +kernel
  have begun : ∃ s, Reach EpollNet.step Spared (· = Sample.start) s ∧
      (s.workers[0]? == some .wait && (popped s.history).length == 2) = true :=
    Reach.exists_of_run rfl completed
  obtain ⟨s, reached, passed⟩ := begun
  rw [Bool.and_eq_true] at passed
  exact ⟨s, workers_survive Sample.started reached, by simpa using passed.1,
    by simpa using passed.2⟩

/-- One item waits; a worker takes its token and reads the size, another is interrupted and reads
the size too, and the second pop answers `NULL`: the worker returns. -/
theorem worker_lost : ¬∀ start, Started start →
    ∀ s, Reach EpollNet.step (fun _ _ => True) (· = start) s → .exited ∉ s.workers := by
  intro survive
  have completed : (runAllowed EpollNet.step (fun _ _ => True) Sample.start
      (Sample.connecting 4 ++ Sample.delivering 4 [65] ++
        [.worker 0, .worker 0, .interrupt 1, .worker 1, .worker 0, .worker 1])).map
        (fun s => s.workers.contains .exited) = some true := by
    decide +kernel
  have begun : ∃ s, Reach EpollNet.step (fun _ _ => True) (· = Sample.start) s ∧
      s.workers.contains .exited = true := Reach.exists_of_run rfl completed
  obtain ⟨s, reached, exited⟩ := begun
  exact survive Sample.start Sample.started s reached (List.contains_iff_mem.mp exited)

end EpollNet
