import EpollNet.Verif.Custody

/-!
# Tokens, items and the receive queue

`event_read` pushes under the lock and posts after it, and a worker takes a token, reads the
size without the lock and pops under it. The balance of the queue against the semaphore, the
tokens in the workers' hands and the posts still to come makes every taken token good for one
item. It holds as long as `sem_post` does not fail, which it does at `SEM_VALUE_MAX`, and the
queue's `unsigned int` counter does not wrap.
-/

namespace EpollNet

open EpollNet.Basis

/-- The worker took a token and has not popped. -/
def Worker.holds : Worker → Bool
  | .size | .pop => true
  | .wait | .call _ | .running _ | .free _ | .exited => false

/-- Items pushed whose post is still to come. -/
def Pc.unposted : Pc → Nat
  | .post _ _ => 1
  | _ => 0

/-- A wait returns only after taking a token. -/
def TakesToken (_ : State) : Label → Prop
  | .interrupt _ => False
  | _ => True

instance (s : State) (l : Label) : Decidable (TakesToken s l) :=
  match l with
  | .interrupt _ => inferInstanceAs (Decidable False)
  | .wait _ | .test | .accept _ | .sockopt _ | .read _ | .push | .post | .write _ | .arrive _
  | .send .. | .worker _ => inferInstanceAs (Decidable True)

/-- A wait returns only after taking a token, no post meets a semaphore at `SEM_VALUE_MAX`, and
no push wraps the queue's counter. -/
def Unbroken (s : State) : Label → Prop
  | .interrupt _ => False
  | .post => s.srv.sem < semValueMax
  | .push => s.srv.rqueue.length + 1 < 2 ^ 32
  | _ => True

instance (s : State) (l : Label) : Decidable (Unbroken s l) :=
  match l with
  | .interrupt _ => inferInstanceAs (Decidable False)
  | .post => inferInstanceAs (Decidable (s.srv.sem < semValueMax))
  | .push => inferInstanceAs (Decidable (s.srv.rqueue.length + 1 < 2 ^ 32))
  | .wait _ | .test | .accept _ | .sockopt _ | .read _ | .write _ | .arrive _ | .send .. |
    .worker _ => inferInstanceAs (Decidable True)

variable {s s' : State}

/-! ## The balance -/

/-- The queue's length against the tokens. -/
structure Balanced (s : State) : Prop where
  /-- Every item has its token: in the semaphore, with a worker, or about to be posted. -/
  tokens : s.srv.rqueue.length =
    s.srv.sem + s.workers.countP Worker.holds + s.reactor.unposted
  /-- The queue's counter has not wrapped. -/
  counted : s.srv.rqueue.length < 2 ^ 32
  /-- No worker left its loop. -/
  working : .exited ∉ s.workers

/-- Returning from a callback leaves no post. -/
theorem unposted_resume (fr : Frame) : fr.resume.unposted = 0 :=
  resume_between (motive := fun pc => pc.unposted = 0) (fun _ => rfl) rfl fr

/-- A test leaves no post. -/
theorem unposted_dispatch (fr : Frame) (event : Nat → EpollEvent) :
    (fr.dispatch event).unposted = 0 :=
  dispatch_between (motive := fun pc => pc.unposted = 0) (fun _ => rfl) (fun _ _ => rfl)
    (fun _ => rfl) rfl fr event

/-- A step of the reactor that leaves queue and semaphore alone, with no post due before or
after. -/
theorem Balanced.reactor {srv : Server} {pc : Pc} {history : List QueueEvent}
    (balanced : Balanced s)
    (before : s.reactor.unposted = 0) (after : pc.unposted = 0) (rqueue : srv.rqueue = s.srv.rqueue)
    (sem : srv.sem = s.srv.sem) : Balanced { s with srv, reactor := pc, history } := by
  obtain ⟨tokens, counted, working⟩ := balanced
  refine ⟨?_, ?_, working⟩
  · rw [rqueue, sem, after, tokens, before]
  · rw [rqueue]
    exact counted

/-- A step that touches neither the queue, the semaphore, a worker nor the reactor's place. -/
theorem Balanced.congr {srv : Server} (balanced : Balanced s) (rqueue : srv.rqueue = s.srv.rqueue)
    (sem : srv.sem = s.srv.sem) : Balanced { s with srv } := by
  obtain ⟨tokens, counted, working⟩ := balanced
  refine ⟨?_, ?_, working⟩
  · rw [rqueue, sem]
    exact tokens
  · rw [rqueue]
    exact counted

/-- A worker that holds a token has an item in the queue. -/
theorem Balanced.positive {w : Nat} {pc : Worker} (balanced : Balanced s)
    (found : s.workers[w]? = some pc) (holds : pc.holds = true) : 0 < s.srv.rqueue.length := by
  have counted : 0 < s.workers.countP Worker.holds := Crew.countP_pos found holds
  have tokens := balanced.tokens
  omega

/-- Its size is not zero. -/
theorem Balanced.size_pos {w : Nat} {pc : Worker} (balanced : Balanced s)
    (found : s.workers[w]? = some pc) (holds : pc.holds = true) :
    0 < dataQueueSize s.srv.rqueue := by
  have positive := balanced.positive found holds
  rw [dataQueueSize, Nat.mod_eq_of_lt balanced.counted]
  exact positive

/-- A worker that moves within its loop, with its token accounted for. -/
theorem Balanced.turn {w : Nat} {old new : Worker} (balanced : Balanced s)
    (found : s.workers[w]? = some old) (reactor : s'.reactor = s.reactor)
    (workers : s'.workers = s.workers.set w new) (stays : new ≠ .exited)
    (counted : s'.srv.rqueue.length ≤ s.srv.rqueue.length)
    (tokens : s'.srv.rqueue.length + s.srv.sem + old.holds.toNat =
      s.srv.rqueue.length + s'.srv.sem + new.holds.toNat) : Balanced s' := by
  have before := balanced.tokens
  have moved := Crew.countP_set found new Worker.holds
  refine ⟨?_, lt_of_le_of_lt counted balanced.counted, fun exited => ?_⟩
  · rw [workers, reactor]
    omega
  · rw [workers] at exited
    rcases List.mem_or_eq_of_mem_set exited with old | same
    · exact balanced.working old
    · exact stays same.symm

/-- A worker's step keeps the balance. -/
theorem Balanced.worker {w : Nat} (balanced : Balanced s) (moved : WorkerStep s w s') :
    Balanced s' := by
  cases moved with
  | taken at_wait positive =>
    refine balanced.turn at_wait rfl rfl nofun (le_refl _) ?_
    show s.srv.rqueue.length + s.srv.sem + 0 = s.srv.rqueue.length + (s.srv.sem - 1) + 1
    omega
  | sized at_size _ => exact balanced.turn at_size rfl rfl nofun (le_refl _) rfl
  | sizedEmpty at_size empty =>
    have positive := balanced.size_pos at_size rfl
    omega
  | poppedEmpty at_pop empty =>
    have positive := balanced.positive at_pop rfl
    rw [empty] at positive
    contradiction
  | @popped item rest at_pop queue =>
    refine balanced.turn at_pop rfl rfl nofun ?_ ?_
    · show rest.length ≤ s.srv.rqueue.length
      rw [queue, List.length_cons]
      omega
    · show rest.length + s.srv.sem + 1 = s.srv.rqueue.length + s.srv.sem + 0
      rw [queue, List.length_cons]
      omega
  | called at_call => exact balanced.turn at_call rfl rfl nofun (le_refl _) rfl
  | returned at_running => exact balanced.turn at_running rfl rfl nofun (le_refl _) rfl
  | freed at_free => exact balanced.turn at_free rfl rfl nofun (le_refl _) rfl

/-- Every unbroken step keeps the balance. -/
theorem Balanced.step {l : Label} (balanced : Balanced s) (allowed : Unbroken s l)
    (stepped : Step s l s') : Balanced s' := by
  cases stepped with
  | waited at_blocked _ =>
    refine balanced.reactor (by rw [at_blocked]; rfl) ?_ rfl rfl
    unfold Pc.begin
    split <;> rfl
  | tested at_test =>
    exact balanced.reactor (by rw [at_test]; rfl) (unposted_dispatch _ _) rfl rfl
  | acceptLooping at_accept => exact balanced.reactor (by rw [at_accept]; rfl) rfl rfl rfl
  | acceptNone at_accept =>
    exact balanced.reactor (by rw [at_accept]; rfl) (unposted_resume _) rfl rfl
  | @acceptDropped fr input inc at_accept _ _ =>
    obtain ⟨kernel, _, dropped⟩ := s.srv.dropped_frame inc
    rw [dropped]
    exact balanced.reactor (by rw [at_accept]; rfl) (unposted_resume _) rfl rfl
  | @acceptRefused fr input inc c rest nconn at_accept _ _ _ _ =>
    obtain ⟨kernel, obj, _, _, refused⟩ := s.srv.refused_frame inc c rest nconn
    rw [refused]
    exact balanced.reactor (by rw [at_accept]; rfl) (unposted_resume _) rfl rfl
  | acceptAdmitted at_accept _ _ _ =>
    exact balanced.reactor (by rw [at_accept]; rfl) rfl rfl rfl
  | sockoptFailed at_sockopt _ =>
    exact balanced.reactor (by rw [at_sockopt]; rfl) (unposted_resume _) rfl rfl
  | sockoptConnected at_sockopt _ =>
    exact balanced.reactor (by rw [at_sockopt]; rfl) rfl rfl rfl
  | sockoptSevered at_sockopt _ _ =>
    exact balanced.reactor (by rw [at_sockopt]; rfl) rfl rfl rfl
  | readSkipped at_read _ => exact balanced.reactor (by rw [at_read]; rfl) rfl rfl rfl
  | readLooping at_read _ _ => exact balanced.reactor (by rw [at_read]; rfl) rfl rfl rfl
  | @readEnded fr c input at_read _ _ =>
    obtain ⟨kernel, obj, _, _, ended⟩ := (s.srv.received c input).hangUp_frame c
    rw [ended]
    exact balanced.reactor (by rw [at_read]; rfl) rfl rfl rfl
  | readFinished at_read _ _ _ _ => exact balanced.reactor (by rw [at_read]; rfl) rfl rfl rfl
  | readItem at_read _ _ _ _ _ _ _ => exact balanced.reactor (by rw [at_read]; rfl) rfl rfl rfl
  | @pushed fr c item at_push =>
    obtain ⟨tokens, _, working⟩ := balanced
    have length : (s.srv.rqueuePush item).rqueue.length = s.srv.rqueue.length + 1 := by
      simp [Server.rqueuePush, dataQueuePush]
    have room : s.srv.rqueue.length + 1 < 2 ^ 32 := allowed
    rw [at_push] at tokens
    refine ⟨?_, by rw [length]; exact room, working⟩
    rw [length, tokens]
    rfl
  | @posted fr c at_post =>
    obtain ⟨tokens, counted, working⟩ := balanced
    have room : s.srv.sem < semValueMax := allowed
    rw [at_post] at tokens
    refine ⟨?_, counted, working⟩
    show s.srv.rqueue.length = lockerPost s.srv.sem + s.workers.countP Worker.holds + 0
    have due : s.srv.rqueue.length = s.srv.sem + s.workers.countP Worker.holds + 1 := tokens
    rw [lockerPost, if_pos room]
    omega
  | writeIdle at_write =>
    exact balanced.reactor (by rw [at_write]; rfl) (unposted_resume _) rfl rfl
  | writeLooping at_write _ _ _ => exact balanced.reactor (by rw [at_write]; rfl) rfl rfl rfl
  | written at_write _ _ _ _ _ _ =>
    exact balanced.reactor (by rw [at_write]; rfl) (unposted_resume _) rfl rfl
  | arrived => exact balanced.congr rfl rfl
  | sendIdle => exact balanced
  | sent _ _ _ _ _ _ => exact balanced.congr rfl rfl
  | worker moved => exact balanced.worker moved
  | interrupted _ => exact allowed.elim

/-! ## Runs -/

/-- A server starts balanced. -/
theorem Blank.balanced (blank : Blank s) : Balanced s := by
  obtain ⟨n, workers⟩ := blank.workers
  have unposted : s.reactor.unposted = 0 := by
    rcases blank.reactor with at_blocked | at_stopped
    · rw [at_blocked]
      rfl
    · rw [at_stopped]
      rfl
  refine ⟨?_, ?_, fun exited => ?_⟩
  · rw [blank.rqueue, blank.sem, unposted, workers, List.countP_replicate]
    rfl
  · rw [blank.rqueue]
    decide
  · rw [workers] at exited
    exact absurd (List.eq_of_mem_replicate exited) nofun

/-- What the queue, its semaphore and the workers keep. -/
structure Conserved (s : State) : Prop where
  /-- The queue's length is the semaphore's value, the tokens held and the posts to come. -/
  tokens : s.srv.rqueue.length =
    s.srv.sem + s.workers.countP Worker.holds + s.reactor.unposted
  /-- A worker that took a token sees a size. -/
  sized : ∀ w : Nat, s.workers[w]? = some .size → 0 < dataQueueSize s.srv.rqueue
  /-- Its pop does not answer `NULL`. -/
  found : ∀ w : Nat, s.workers[w]? = some .pop → (dataQueuePop s.srv.rqueue).1.isSome = true
  /-- No worker left its loop. -/
  working : .exited ∉ s.workers
  /-- No two pushes pushed one item. -/
  distinct : (pushed s.history).Nodup
  /-- Only pushed items are handed to `procread`. -/
  handedPushed : ∀ item ∈ handed s.history, item ∈ pushed s.history
  /-- None is handed over twice. -/
  handedOnce : (handed s.history).Nodup
  /-- Nothing is freed twice. -/
  freedOnce : s.srv.heap.freed.Nodup
  /-- Items leave the queue in push order. -/
  ordered : popped s.history <+: pushed s.history
  /-- With no token held and no post to come, an empty semaphore means an empty queue. -/
  stranded : s.workers.countP Worker.holds = 0 → s.reactor.unposted = 0 → s.srv.sem = 0 →
    s.srv.rqueue = []

/-- The invariants say what is kept. -/
theorem conserved_of (balanced : Balanced s) (logged : Logged s) (owned : Owned s) :
    Conserved s := by
  have pushes : (pushed s.history).Nodup := by
    have ascending := logged.ascending
    rw [List.map_append] at ascending
    have addresses := (List.pairwise_append.mp ascending).1
    exact List.Nodup.of_map Item.addr (addresses.imp fun less => ne_of_lt less)
  have ordered : popped s.history <+: pushed s.history :=
    ⟨s.srv.rqueue, logged.fifo.symm⟩
  have hands := logged.passed.nodup_iff.mp (ordered.sublist.nodup pushes)
  constructor
  · exact balanced.tokens
  · exact fun _ at_size => balanced.size_pos at_size rfl
  · intro w at_pop
    have positive := balanced.positive at_pop rfl
    cases queue : s.srv.rqueue with
    | nil =>
      rw [queue] at positive
      contradiction
    | cons _ _ => rfl
  · exact balanced.working
  · exact pushes
  · intro item member
    exact ordered.subset (logged.passed.mem_iff.mpr (List.mem_append_left _ member))
  · exact (List.nodup_append.mp hands).1
  · exact (List.nodup_append.mp owned.nodup).2.1
  · exact ordered
  · intro held due empty
    have tokens := balanced.tokens
    rw [held, due, empty] at tokens
    exact List.eq_nil_of_length_eq_zero tokens

/-- In every run in which no post meets a full semaphore and no push wraps the queue's counter,
tokens are conserved and items are handed over and freed once, in push order. -/
theorem tokens_conserved (reached : Reach EpollNet.step Unbroken Started s) : Conserved s := by
  obtain ⟨logged, owned⟩ := custody reached
  have balanced : Balanced s := by
    apply reached.invariant
    · exact fun _ started => started.blank.balanced
    · exact fun _ _ _ balanced allowed stepped => balanced.step allowed (step_cases stepped)
  exact conserved_of balanced logged owned

/-- A byte is delivered, taken by a worker, presented and freed. -/
theorem tokens_conserved_freed : ∃ s, Conserved s ∧ s.srv.heap.freed = [1, 0] ∧
    (handed s.history).length = 1 := by
  have completed : (runAllowed EpollNet.step Unbroken Sample.start
      (Sample.connecting 4 ++ Sample.delivering 4 [65] ++ Sample.taking 0 ++
        [.worker 0, .worker 0, .worker 0])).map
        (fun s => s.srv.heap.freed == [1, 0] && (handed s.history).length == 1) = some true := by
    decide +kernel
  obtain ⟨s, reached, passed⟩ := Reach.exists_of_run Sample.started completed
  obtain ⟨freed, once⟩ := Bool.and_eq_true_iff.mp passed
  exact ⟨s, tokens_conserved reached, eq_of_beq freed, eq_of_beq once⟩

/-! ## A full semaphore -/

/-- Between two deliveries to the first client, with `k` items queued and every worker waiting. -/
structure Stocked (s : State) (k : Nat) : Prop where
  /-- The reactor is between batches. -/
  reactor : s.reactor = .blocked
  /-- The client's descriptor is open and has nothing to read. -/
  isOpen : s.srv.kernel.sock 4 = some ⟨[], false, 1⟩
  /-- It is registered for the client's object. -/
  registered : (s.srv.kernel.reg 4).map EpollEvent.ptr = some 1
  /-- The object carries it. -/
  fd : (s.srv.conns 1).fd = 4
  /-- No worker holds a token. -/
  idle : s.workers.countP Worker.holds = 0
  /-- Nobody took an item. -/
  queued : s.srv.rqueue.length = k
  /-- The semaphore counts them up to its largest value. -/
  sem : s.srv.sem = min k semValueMax

/-- One more delivery. -/
theorem Stocked.deliver {k : Nat} (stocked : Stocked s k) :
    ∃ s', run step s (Sample.delivering 4 [65]) = some s' ∧ Stocked s' (k + 1) := by
  obtain ⟨reactor, isOpen, registered, fd, idle, queued, sem⟩ := stocked
  obtain ⟨⟨events, _⟩, found, rfl⟩ := Option.map_eq_some_iff.mp registered
  have quiet : hasAny epollIn (epollOut ||| epollHup) = false := by decide
  have clean : hasAny epollIn epollErr = false := by decide
  have fires : hasAny epollIn (epollIn ||| epollHup) = true := by decide
  have reads : hasAny eventReadBits eventReadBits = true := by decide
  have keeps : hasAny eventWriteBits eventReadBits = false := by decide
  have posted : lockerPost (min k semValueMax) = min (k + 1) semValueMax := by
    unfold lockerPost
    split <;> omega
  simp [Sample.delivering, Sample.reading, run, step, reactor, Kernel.Reports, found,
    Server.epollWait, Kernel.reported, Frame.dispatch, Frame.enter, Frame.resume, quiet, clean,
    fires, reads, keeps, serverConn, Server.callbackSockopt, Kernel.getsockopt, isOpen, fd,
    afterSockopt, Server.eventReadRecv, readData, readLoop, Kernel.arriveAll, Kernel.arrive,
    Kernel.read, Server.recvbufferSize, cStrMalloc, cStrCreate, afterRead, Server.rqueuePush,
    Server.rqueuePost, Kernel.log, sem, posted]
  constructor
  · rfl
  · simp
  · simp [found]
  · simp
  · exact idle
  · simp [dataQueuePush, queued]
  · rfl

/-- No step of a delivery is an interrupted wait. -/
theorem takesToken_delivering : ∀ l ∈ Sample.delivering 4 [65], ∀ s, TakesToken s l := by
  intro l member s
  simp only [Sample.delivering, List.mem_cons, List.not_mem_nil, or_false] at member
  rcases member with rfl | rfl | rfl | rfl | rfl | rfl | rfl | rfl <;> trivial

/-- Any number of deliveries that no worker takes. -/
theorem stocked_deliveries (k : Nat) :
    ∃ s, Reach EpollNet.step TakesToken Started s ∧ Stocked s k := by
  induction k with
  | zero =>
    have completed : (runAllowed EpollNet.step TakesToken Sample.start
        (Sample.connecting 4)).map (fun s => decide (s.reactor = .blocked ∧
          s.srv.kernel.sock 4 = some ⟨[], false, 1⟩ ∧
          (s.srv.kernel.reg 4).map EpollEvent.ptr = some 1 ∧ (s.srv.conns 1).fd = 4 ∧
          s.workers.countP Worker.holds = 0 ∧ s.srv.rqueue.length = 0 ∧ s.srv.sem = 0)) =
        some true := by
      decide +kernel
    obtain ⟨s, reached, passed⟩ := Reach.exists_of_run Sample.started completed
    obtain ⟨reactor, isOpen, registered, fd, idle, queued, sem⟩ := of_decide_eq_true passed
    exact ⟨s, reached, reactor, isOpen, registered, fd, idle, queued, by simp [sem]⟩
  | succ k ih =>
    obtain ⟨s, reached, stocked⟩ := ih
    obtain ⟨s', completed, stocked⟩ := stocked.deliver
    exact ⟨s', reached.of_run takesToken_delivering completed, stocked⟩

/-- After one delivery more than `SEM_VALUE_MAX` an item has no token. -/
theorem tokens_not_conserved :
    ¬∀ s, Reach EpollNet.step TakesToken Started s → Conserved s := by
  intro conserved
  obtain ⟨s, reached, stocked⟩ := stocked_deliveries (semValueMax + 1)
  have tokens := (conserved s reached).tokens
  rw [stocked.queued, stocked.sem, stocked.idle, stocked.reactor] at tokens
  have none : Pc.blocked.unposted = 0 := rfl
  rw [none] at tokens
  omega

end EpollNet
