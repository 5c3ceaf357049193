import EpollNet.Verif.Handlers

/-!
# Every step the server can take

`step` is inverted once. A constructor of `Step` is one outcome of one step: where the reactor
was, what the kernel answered as far as it matters, and the state that results. Invariants are
proved by cases on `Step`, and the steps of the workers, which leave the reactor and the
connection objects alone, form a relation of their own.
-/

namespace EpollNet

open EpollNet.Basis

/-! ## Workers -/

/-- One step of worker `w`. -/
inductive WorkerStep (s : State) (w : Nat) : State → Prop
  /-- The semaphore lets the worker through. -/
  | taken : s.workers[w]? = some .wait → 0 < s.srv.sem →
      WorkerStep s w ({ s with srv := { s.srv with sem := s.srv.sem - 1 } }.setWorker w .size)
  /-- The queue has a size. -/
  | sized : s.workers[w]? = some .size → 0 < dataQueueSize s.srv.rqueue →
      WorkerStep s w (s.setWorker w .pop)
  /-- The queue's size reads as zero. -/
  | sizedEmpty : s.workers[w]? = some .size → dataQueueSize s.srv.rqueue = 0 →
      WorkerStep s w (s.setWorker w .wait)
  /-- The pop answers `NULL` and the function returns. -/
  | poppedEmpty : s.workers[w]? = some .pop → s.srv.rqueue = [] →
      WorkerStep s w (s.setWorker w .exited)
  /-- The first item is popped. -/
  | popped {item : Item} {rest : List Item} : s.workers[w]? = some .pop →
      s.srv.rqueue = item :: rest →
      WorkerStep s w ({ s with
        srv := { s.srv with rqueue := rest }
        history := .pop w item :: s.history }.setWorker w (.call item))
  /-- `procread` is called. -/
  | called {item : Item} : s.workers[w]? = some (.call item) →
      WorkerStep s w ({ s with history := .start w item :: s.history }.setWorker w (.running item))
  /-- `procread` returns. -/
  | returned {item : Item} : s.workers[w]? = some (.running item) →
      WorkerStep s w ({ s with history := .finish w item :: s.history }.setWorker w (.free item))
  /-- The item and its buffer are freed. -/
  | freed {item : Item} : s.workers[w]? = some (.free item) →
      WorkerStep s w ({ s with srv := { s.srv with
        heap := (cStrFree s.srv.heap item.recvptr).free item.addr } }.setWorker w .wait)

/-- `Server_Process` takes no other step. -/
theorem serverProcess_cases {s s' : State} {w : Nat} (stepped : s.serverProcess w = some s') :
    WorkerStep s w s' := by
  unfold State.serverProcess at stepped
  cases found : s.workers[w]? with
  | none =>
    rw [found] at stepped
    contradiction
  | some pc =>
    rw [found] at stepped
    cases pc with
    | wait =>
      by_cases positive : 0 < s.srv.sem
      · simp only [lockerSemwait, positive, if_true, Option.map_some, Option.some.injEq] at stepped
        exact stepped ▸ .taken found positive
      · simp [lockerSemwait, positive] at stepped
    | size =>
      by_cases positive : 0 < dataQueueSize s.srv.rqueue
      · simp only [gt_iff_lt, positive, if_true, Option.some.injEq] at stepped
        exact stepped ▸ .sized found positive
      · simp only [gt_iff_lt, positive, if_false, Option.some.injEq] at stepped
        exact stepped ▸ .sizedEmpty found (Nat.eq_zero_of_not_pos positive)
    | pop =>
      cases queue : s.srv.rqueue with
      | nil =>
        simp only [queue, dataQueuePop, Option.some.injEq] at stepped
        rw [← queue] at stepped
        exact stepped ▸ .poppedEmpty found queue
      | cons item rest =>
        simp only [queue, dataQueuePop, Option.some.injEq] at stepped
        exact stepped ▸ .popped found queue
    | call item => exact Option.some.inj stepped ▸ .called found
    | running item => exact Option.some.inj stepped ▸ .returned found
    | free item => exact Option.some.inj stepped ▸ .freed found
    | exited => contradiction

/-- A worker touches the receive queue, its semaphore and the allocator only. -/
theorem WorkerStep.frame {s s' : State} {w : Nat} (stepped : WorkerStep s w s') :
    s'.reactor = s.reactor ∧
      ∃ rqueue sem heap, s'.srv = { s.srv with rqueue, sem, heap } := by
  cases stepped <;> exact ⟨rfl, _, _, _, rfl⟩

/-! ## Between callbacks -/

/-- What holds at every test and before the next wait holds where a test or a callback returns
to. -/
theorem resume_between {motive : Pc → Prop} (test : ∀ fr, motive (.test fr))
    (blocked : motive .blocked) (fr : Frame) : motive fr.resume := by
  unfold Frame.resume
  split
  · exact test _
  · split
    · exact test _
    · exact blocked

/-- What holds there and where a callback is entered holds after a test. -/
theorem dispatch_between {motive : Pc → Prop} (accept : ∀ fr, motive (.accept fr))
    (sockopt : ∀ fr ptr, motive (.sockopt fr ptr)) (test : ∀ fr, motive (.test fr))
    (blocked : motive .blocked) (fr : Frame) (event : Nat → EpollEvent) :
    motive (fr.dispatch event) := by
  have enter : ∀ (fr : Frame) ptr, motive (fr.enter ptr) := by
    intro fr ptr
    unfold Frame.enter
    split
    · exact accept fr
    · exact sockopt fr ptr
  unfold Frame.dispatch
  split
  · split
    · exact enter _ _
    · exact resume_between test blocked _
  · dsimp only
    split
    · exact enter _ _
    · exact resume_between test blocked _

/-! ## All threads -/

/-- Where the reactor goes with a batch of `n` entries. -/
def Pc.begin (n : Nat) : Pc := if n > 0 then .test ⟨0, n, 0, .out⟩ else .blocked

/-- Everything one step can do, by its label. -/
inductive Step (s : State) : Label → State → Prop
  /-- `epoll_wait` returns. -/
  | waited {batch : List (Fd × BitVec 32)} : s.reactor = .blocked → s.srv.kernel.Reports batch →
      Step s (.wait batch)
        { s with srv := s.srv.epollWait batch, reactor := Pc.begin batch.length }
  /-- A test is evaluated. -/
  | tested {fr : Frame} : s.reactor = .test fr →
      Step s .test { s with reactor := fr.dispatch s.srv.event }
  /-- The accepting loop has not ended. -/
  | acceptLooping {fr : Frame} {input : Server.AcceptInput} : s.reactor = .accept fr →
      Step s (.accept input) { s with reactor := .inHandler }
  /-- Nothing was accepted. -/
  | acceptNone {fr : Frame} {input : Server.AcceptInput} : s.reactor = .accept fr →
      Step s (.accept input) { s with reactor := fr.resume }
  /-- A descriptor was accepted and no object found for it. -/
  | acceptDropped {fr : Frame} {input : Server.AcceptInput} {inc : Kernel.Incoming} :
      s.reactor = .accept fr → .ok inc ∈ input.script → s.srv.kernel.Free inc.fd →
      Step s (.accept input) { s with srv := s.srv.dropped inc, reactor := fr.resume }
  /-- The registration of an accepted descriptor was refused. -/
  | acceptRefused {fr : Frame} {input : Server.AcceptInput} {inc : Kernel.Incoming} {c : ConnPtr}
      {rest : List ConnPtr} {nconn : ConnPtr} :
      s.reactor = .accept fr → .ok inc ∈ input.script → s.srv.kernel.Free inc.fd →
      s.srv.roster.Next c rest nconn →
      (s.srv.kernel.reg inc.fd = none → input.granted = false) →
      Step s (.accept input) { s with srv := s.srv.refused inc c rest nconn, reactor := fr.resume }
  /-- A connection was accepted and registered. -/
  | acceptAdmitted {fr : Frame} {input : Server.AcceptInput} {inc : Kernel.Incoming} {c : ConnPtr}
      {rest : List ConnPtr} {nconn : ConnPtr} :
      s.reactor = .accept fr → .ok inc ∈ input.script → s.srv.kernel.Free inc.fd →
      s.srv.roster.Next c rest nconn →
      Step s (.accept input)
        { s with srv := s.srv.admitted inc c rest nconn, reactor := .sockopt fr c }
  /-- `getsockopt` failed and the callback returns. -/
  | sockoptFailed {fr : Frame} {c : ConnPtr} {answer : Option Int} :
      s.reactor = .sockopt fr c → answer = none ∨ s.srv.kernel.sock (s.srv.conns c).fd = none →
      Step s (.sockopt answer)
        { s with
          srv := { s.srv with kernel := s.srv.kernel.log (.getsockopt (s.srv.conns c).fd) }
          reactor := fr.resume }
  /-- No error is pending. -/
  | sockoptConnected {fr : Frame} {c : ConnPtr} : s.reactor = .sockopt fr c →
      (s.srv.kernel.sock (s.srv.conns c).fd).isSome = true →
      Step s (.sockopt (some 0))
        { s with
          srv := { s.srv with
            kernel := s.srv.kernel.log (.getsockopt (s.srv.conns c).fd)
            conns := Function.update s.srv.conns c
              { s.srv.conns c with activity := .connected } }
          reactor := .read fr c }
  /-- An error is pending and the descriptor is closed. -/
  | sockoptSevered {fr : Frame} {c : ConnPtr} {val : Int} : s.reactor = .sockopt fr c →
      (s.srv.kernel.sock (s.srv.conns c).fd).isSome = true → val ≠ 0 →
      Step s (.sockopt (some val)) { s with srv := s.srv.severed c, reactor := .read fr c }
  /-- The callback does not read. -/
  | readSkipped {fr : Frame} {c : ConnPtr} {input : Server.ReadInput} : s.reactor = .read fr c →
      hasAny eventReadBits fr.events = false →
      Step s (.read input) { s with reactor := .write fr c }
  /-- `readData` has not returned. -/
  | readLooping {fr : Frame} {c : ConnPtr} {input : Server.ReadInput} : s.reactor = .read fr c →
      hasAny eventReadBits fr.events = true → s.srv.recvlen c input = none →
      Step s (.read input)
        { s with srv := s.srv.received c input, reactor := .inHandler }
  /-- `event_read` met the end of the stream and returned the object. -/
  | readEnded {fr : Frame} {c : ConnPtr} {input : Server.ReadInput} : s.reactor = .read fr c →
      hasAny eventReadBits fr.events = true → s.srv.recvlen c input = some 0 →
      Step s (.read input)
        { s with srv := (s.srv.received c input).hangUp c, reactor := .write fr c }
  /-- `event_read` queues nothing. -/
  | readFinished {fr : Frame} {c : ConnPtr} {input : Server.ReadInput} {recvlen : Int}
      {heap : Heap} : s.reactor = .read fr c → hasAny eventReadBits fr.events = true →
      s.srv.recvlen c input = some recvlen → recvlen ≠ 0 → s.srv.heap.Grown heap none →
      Step s (.read input)
        { s with srv := { s.srv.received c input with heap }, reactor := .write fr c }
  /-- `event_read` built an item. -/
  | readItem {fr : Frame} {c : ConnPtr} {input : Server.ReadInput} {recvlen : Int} {item : Item}
      {made : Heap} : s.reactor = .read fr c → hasAny eventReadBits fr.events = true →
      s.srv.recvlen c input = some recvlen → 0 < recvlen →
      item.connobj = c →
      item.client = ((s.srv.kernel.sock (s.srv.conns c).fd).map Socket.client).getD 0 →
      s.srv.heap.Grown made item.recvptr → item.addr = made.next →
      Step s (.read input)
        { s with
          srv := { s.srv.received c input with heap := { made with next := made.next + 1 } }
          reactor := .push fr c item
          history := .read item :: s.history }
  /-- The item is pushed. -/
  | pushed {fr : Frame} {c : ConnPtr} {item : Item} : s.reactor = .push fr c item →
      Step s .push { s with
        srv := s.srv.rqueuePush item
        reactor := .post fr c
        history := .push item :: s.history }
  /-- The semaphore is posted. -/
  | posted {fr : Frame} {c : ConnPtr} : s.reactor = .post fr c →
      Step s .post { s with srv := s.srv.rqueuePost, reactor := .write fr c }
  /-- The callback does not write, or has nothing to send. -/
  | writeIdle {fr : Frame} {c : ConnPtr} {script : List (Except Errno Nat)} :
      s.reactor = .write fr c →
      Step s (.write script) { s with reactor := fr.resume }
  /-- `sendData` has not returned. -/
  | writeLooping {fr : Frame} {c : ConnPtr} {script : List (Except Errno Nat)} {b : Buf} :
      s.reactor = .write fr c → hasAny eventWriteBits fr.events = true →
      (s.srv.conns c).sendptr = some b → 0 < (s.srv.conns c).sendlen →
      Step s (.write script)
        { s with srv := s.srv.sending c b script, reactor := .inHandler }
  /-- `event_write` made an attempt and changed the interest. -/
  | written {fr : Frame} {c : ConnPtr} {script : List (Except Errno Nat)} {b : Buf} {heap : Heap}
      {obj : ConnObj} {flags : BitVec 32} :
      s.reactor = .write fr c → hasAny eventWriteBits fr.events = true →
      (s.srv.conns c).sendptr = some b → 0 < (s.srv.conns c).sendlen →
      obj.fd = (s.srv.conns c).fd → obj.activity = (s.srv.conns c).activity →
      (heap = s.srv.heap ∧ obj = s.srv.conns c ∨
        heap = s.srv.heap.free b.addr ∧ obj.sendptr = none) →
      Step s (.write script)
        { s with
          srv := (({ s.srv with
            kernel := (sendData (s.srv.conns c) b script s.srv.kernel).kernel
            heap
            conns := Function.update s.srv.conns c obj } : Server).epollEventModifyConn c flags).2
          reactor := fr.resume }
  /-- Bytes or a FIN arrive. -/
  | arrived {a : Kernel.Arrival} :
      Step s (.arrive a) { s with srv := { s.srv with kernel := s.srv.kernel.arrive a } }
  /-- `ServerSend` does nothing. -/
  | sendIdle {c : ConnPtr} {data : Option Memory} {len : Int} {granted : Bool} :
      Step s (.send c data len granted) s
  /-- `ServerSend` stores a buffer and changes the interest. -/
  | sent {c : ConnPtr} {data : Option Memory} {len : Int} {granted : Bool} {heap : Heap}
      {obj : ConnObj} {sent : List (ConnPtr × Nat × Buf)} :
      c < s.srv.nconn → 0 < len → (s.srv.conns c).activity = .connected →
      obj.fd = (s.srv.conns c).fd → obj.activity = .connected →
      s.srv.heap.Grown heap obj.sendptr →
      Step s (.send c data len granted)
        { s with
          srv := (({ s.srv with heap, conns := Function.update s.srv.conns c obj, sent } :
            Server).epollEventModifyConn c eventWriteBits).2 }
  /-- A worker steps. -/
  | worker {w : Nat} {s' : State} : WorkerStep s w s' → Step s (.worker w) s'
  /-- A wait is interrupted. -/
  | interrupted {w : Nat} : s.workers[w]? = some .wait →
      Step s (.interrupt w) (s.setWorker w .size)

/-! ## Inversion -/

/-- The steps of `Server_Accept`. -/
theorem afterAccept_cases {s : State} {fr : Frame} (at_accept : s.reactor = .accept fr)
    (input : Server.AcceptInput) :
    Step s (.accept input) (afterAccept s fr (s.srv.serverAccept input)) := by
  rcases s.srv.serverAccept_cases input with
    ⟨result, kind, called⟩ | ⟨inc, offered, free, _, ⟨_, called⟩ | ⟨c, rest, nconn, next, added⟩⟩
  · rw [called]
    rcases kind with rfl | rfl
    · exact .acceptLooping at_accept
    · exact .acceptNone at_accept
  · rw [called]
    exact .acceptDropped at_accept offered free
  · rcases added with called | ⟨refused, called⟩
    · rw [called]
      exact .acceptAdmitted at_accept offered free next
    · rw [called]
      exact .acceptRefused at_accept offered free next refused

/-- The steps of the `SO_ERROR` part. -/
theorem afterSockopt_cases {s : State} {fr : Frame} {c : ConnPtr}
    (at_sockopt : s.reactor = .sockopt fr c) (answer : Option Int) :
    Step s (.sockopt answer) (afterSockopt s fr c (s.srv.callbackSockopt c answer)) := by
  rcases s.srv.callbackSockopt_cases c answer with
    ⟨called, failed⟩ | ⟨isOpen, rfl, called⟩ | ⟨isOpen, ⟨val, rfl, nonzero⟩, called⟩
  · rw [called]
    exact .sockoptFailed at_sockopt failed
  · rw [called]
    exact .sockoptConnected at_sockopt isOpen
  · rw [called]
    exact .sockoptSevered at_sockopt isOpen nonzero

/-- The steps of `event_read` up to its push. -/
theorem afterRead_cases {s : State} {fr : Frame} {c : ConnPtr} (at_read : s.reactor = .read fr c)
    (reads : hasAny eventReadBits fr.events = true) (input : Server.ReadInput) :
    Step s (.read input) (afterRead s fr c (s.srv.eventReadRecv c input)) := by
  rcases s.srv.eventReadRecv_cases c input with
    ⟨returned, called⟩ | ⟨looping, called⟩ | ⟨recvlen, heap, returned, nonzero, grown, called⟩ |
    ⟨recvlen, item, made, returned, positive, named, read, grown, addr, called⟩
  · rw [called]
    exact .readEnded at_read reads returned
  · rw [called]
    exact .readLooping at_read reads looping
  · rw [called]
    exact .readFinished at_read reads returned nonzero grown
  · rw [called]
    exact .readItem at_read reads returned positive named read grown addr

/-- The steps of `event_write`. -/
theorem afterWrite_cases {s : State} {fr : Frame} {c : ConnPtr} (at_write : s.reactor = .write fr c)
    (writes : hasAny eventWriteBits fr.events = true) (script : List (Except Errno Nat)) :
    Step s (.write script) (afterWrite s fr (s.srv.eventWrite c script)) := by
  rcases s.srv.eventWrite_cases c script with
    ⟨_, called⟩ | ⟨b, pending, positive,
      ⟨_, called⟩ | ⟨_, called⟩ | ⟨_, called⟩ | ⟨ret, _, _, _, called⟩⟩
  · rw [called]
    exact .writeIdle at_write
  · rw [called]
    exact .writeLooping at_write writes pending positive
  · rw [called, Server.sending_eq]
    exact .written at_write writes pending positive rfl rfl (.inl ⟨rfl, rfl⟩)
  · rw [called, Server.sending_eq]
    exact .written at_write writes pending positive rfl rfl (.inl ⟨rfl, rfl⟩)
  · rw [called]
    exact .written at_write writes pending positive (by rfl) (by rfl) (.inr ⟨by rfl, by rfl⟩)

/-- `Step` leaves no step out. -/
theorem step_cases {s s' : State} {l : Label} (stepped : step s l = some s') : Step s l s' := by
  cases l with
  | wait batch =>
    simp only [step] at stepped
    split at stepped
    · split at stepped
      · exact Option.some.inj stepped ▸ .waited ‹_› ‹_›
      · contradiction
    · contradiction
  | test =>
    simp only [step] at stepped
    split at stepped
    · exact Option.some.inj stepped ▸ .tested ‹_›
    · contradiction
  | accept input =>
    simp only [step] at stepped
    split at stepped
    · exact Option.some.inj stepped ▸ afterAccept_cases ‹_› input
    · contradiction
  | sockopt answer =>
    simp only [step] at stepped
    split at stepped
    · exact Option.some.inj stepped ▸ afterSockopt_cases ‹_› answer
    · contradiction
  | read input =>
    simp only [step] at stepped
    split at stepped
    · split at stepped
      · exact Option.some.inj stepped ▸ afterRead_cases ‹_› ‹_› input
      · exact Option.some.inj stepped ▸ .readSkipped ‹_› (Bool.eq_false_iff.mpr ‹_›)
    · contradiction
  | push =>
    simp only [step] at stepped
    split at stepped
    · exact Option.some.inj stepped ▸ .pushed ‹_›
    · contradiction
  | post =>
    simp only [step] at stepped
    split at stepped
    · exact Option.some.inj stepped ▸ .posted ‹_›
    · contradiction
  | write script =>
    simp only [step] at stepped
    split at stepped
    · split at stepped
      · exact Option.some.inj stepped ▸ afterWrite_cases ‹_› ‹_› script
      · exact Option.some.inj stepped ▸ .writeIdle ‹_›
    · contradiction
  | arrive a => exact Option.some.inj stepped ▸ .arrived
  | send c data len granted =>
    simp only [step] at stepped
    split at stepped
    · rename_i known
      rcases s.srv.serverSend_cases c data len granted with
        called | ⟨positive, connected, heap, obj, sent, fd, activity, grown, called⟩
      · rw [called] at stepped
        exact Option.some.inj stepped ▸ .sendIdle
      · rw [called] at stepped
        exact Option.some.inj stepped ▸ .sent known positive connected fd activity grown
    · contradiction
  | worker w => exact .worker (serverProcess_cases stepped)
  | interrupt w =>
    simp only [step] at stepped
    split at stepped
    · exact Option.some.inj stepped ▸ .interrupted ‹_›
    · contradiction

end EpollNet
