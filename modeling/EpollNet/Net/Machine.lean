import EpollNet.Basis.Transition
import EpollNet.Net.Server

/-!
# The running server

One reactor thread in `Server_Loop`, any number of workers in `Server_Process`, the kernel and
callers of `ServerSend`, interleaved. A step is one handler, or one part of it where a worker can
step in, together with everything the kernel answers to it. `ServerSend` is one step too, and comes
between the steps of the reactor, never inside one: what it may do to a change of interest that is
under way is the subject of finer models. The reactor's program counter carries the locals of
`epollEvent_wait` through a callback, so that control returns to the second test of the same entry
or to the next entry. A handler that has not returned leaves the reactor in `inHandler`, where it
stays: a longer list of answers is a different run.
-/

namespace EpollNet

/-! ## The reactor -/

/-- The two tests of the loop body of `epollEvent_wait` that dispatch. -/
inductive Test where
  /-- `EPOLLOUT | EPOLLHUP`. -/
  | out
  /-- `EPOLLIN | EPOLLHUP`. -/
  | inp
deriving DecidableEq

/-- Locals of `epollEvent_wait` and the test it is at. -/
structure Frame where
  /-- `i`. -/
  i : Nat
  /-- `fd_active_nums`. -/
  n : Nat
  /-- `events`, never cleared between entries. -/
  events : BitVec 32
  /-- Test to evaluate, or test whose callback runs. -/
  test : Test
deriving DecidableEq

/-- Where the reactor thread is. -/
inductive Pc where
  /-- Blocked in `epoll_wait`. -/
  | blocked
  /-- About to evaluate a test of the current entry. -/
  | test (fr : Frame)
  /-- In a callback, about to run `Server_Accept`. -/
  | accept (fr : Frame)
  /-- In a callback, about to read `SO_ERROR`. -/
  | sockopt (fr : Frame) (c : ConnPtr)
  /-- In a callback, at the test of `EVENT_READ`. -/
  | read (fr : Frame) (c : ConnPtr)
  /-- In `event_read`, about to push. -/
  | push (fr : Frame) (c : ConnPtr) (item : Item)
  /-- In `event_read`, about to post. -/
  | post (fr : Frame) (c : ConnPtr)
  /-- In a callback, at the test of `EVENT_WRITE`. -/
  | write (fr : Frame) (c : ConnPtr)
  /-- Inside a handler that has not returned. -/
  | inHandler
  /-- `StartServer` returned `NULL` and started no loop. -/
  | stopped
deriving DecidableEq

/-- Where a callback returns to, or a failed test continues. -/
def Frame.resume (fr : Frame) : Pc :=
  match fr.test with
  | .out => .test { fr with test := .inp }
  | .inp =>
    if fr.i + 1 < fr.n then .test { fr with i := fr.i + 1, test := .out } else .blocked

/-- Entry of `epollEvent_callback`: the listening object means a new connection. -/
def Frame.enter (fr : Frame) (ptr : ConnPtr) : Pc :=
  if ptr = serverConn then .accept fr else .sockopt fr ptr

/-- One test of the loop body, the `EPOLLERR` test being run ahead of the second. -/
def Frame.dispatch (fr : Frame) (event : Nat → EpollEvent) : Pc :=
  match fr.test with
  | .out =>
    if hasAny (event fr.i).events (epollOut ||| epollHup) then
      { fr with events := fr.events ||| eventWriteBits }.enter (event fr.i).ptr
    else fr.resume
  | .inp =>
    let events :=
      if hasAny (event fr.i).events epollErr then fr.events ||| eventErrBits else fr.events
    if hasAny (event fr.i).events (epollIn ||| epollHup) then
      { fr with events := events ||| eventReadBits }.enter (event fr.i).ptr
    else { fr with events }.resume

/-! ## The workers -/

/-- Where a worker in `Server_Process` is. -/
inductive Worker where
  /-- About to wait on the semaphore. -/
  | wait
  /-- About to read the queue's size. -/
  | size
  /-- About to pop under the lock. -/
  | pop
  /-- About to call `procread`. -/
  | call (item : Item)
  /-- Inside `procread`. -/
  | running (item : Item)
  /-- About to free the item and its buffer. -/
  | free (item : Item)
  /-- The function returned. -/
  | exited
deriving DecidableEq

/-- An event in the life of an item. -/
inductive QueueEvent where
  /-- `event_read` builds an item from bytes it read. -/
  | read (item : Item)
  /-- The reactor pushes an item. -/
  | push (item : Item)
  /-- A worker pops an item. -/
  | pop (w : Nat) (item : Item)
  /-- A worker's call of `procread` starts. -/
  | start (w : Nat) (item : Item)
  /-- The call returns. -/
  | finish (w : Nat) (item : Item)
deriving DecidableEq

/-- State of the whole server. -/
structure State where
  /-- Memory and kernel. -/
  srv : Server
  /-- Reactor thread. -/
  reactor : Pc
  /-- Worker threads. -/
  workers : List Worker
  /-- What happened to items, newest first; bookkeeping of the model. -/
  history : List QueueEvent

namespace State

/-- Move one worker. -/
def setWorker (s : State) (w : Nat) (pc : Worker) : State :=
  { s with workers := s.workers.set w pc }

/-- One step of `Server_Process` in worker `w`. -/
def serverProcess (s : State) (w : Nat) : Option State :=
  match s.workers[w]? with
  | some .wait =>
    (lockerSemwait s.srv.sem).map fun sem =>
      { s with srv := { s.srv with sem } }.setWorker w .size
  | some .size =>
    if dataQueueSize s.srv.rqueue > 0 then some (s.setWorker w .pop)
    else some (s.setWorker w .wait)
  | some .pop =>
    match dataQueuePop s.srv.rqueue with
    | (none, rqueue) => some ({ s with srv := { s.srv with rqueue } }.setWorker w .exited)
    | (some item, rqueue) =>
      some ({ s with
        srv := { s.srv with rqueue }
        history := .pop w item :: s.history }.setWorker w (.call item))
  | some (.call item) =>
    some ({ s with history := .start w item :: s.history }.setWorker w (.running item))
  | some (.running item) =>
    some ({ s with history := .finish w item :: s.history }.setWorker w (.free item))
  | some (.free item) =>
    some ({ s with srv := { s.srv with
      heap := (cStrFree s.srv.heap item.recvptr).free item.addr } }.setWorker w .wait)
  | some .exited | none => none

end State

/-! ## Steps -/

/-- A step of some thread, or of the kernel, with what the kernel answers to it. -/
inductive Label where
  /-- `epoll_wait` returns a batch. -/
  | wait (batch : List (Fd × BitVec 32))
  /-- The reactor evaluates a test. -/
  | test
  /-- `Server_Accept`. -/
  | accept (input : Server.AcceptInput)
  /-- The `SO_ERROR` part of the callback. -/
  | sockopt (answer : Option Int)
  /-- `event_read` up to its push, or its skipping. -/
  | read (input : Server.ReadInput)
  /-- The push of `event_read`. -/
  | push
  /-- The post of `event_read`. -/
  | post
  /-- `event_write`, or its skipping. -/
  | write (script : List (Except Errno Nat))
  /-- Bytes or a FIN arrive. -/
  | arrive (a : Kernel.Arrival)
  /-- Some thread calls `ServerSend`, which nothing interrupts. -/
  | send (c : ConnPtr) (data : Option Memory) (len : Int) (granted : Bool)
  /-- A worker steps. -/
  | worker (w : Nat)
  /-- A worker's `sem_wait` is interrupted and takes no token. -/
  | interrupt (w : Nat)

/-- The reactor after `Server_Accept` in the callback of a frame. -/
def afterAccept (s : State) (fr : Frame) : Option (Option ConnPtr) × Server → State
  | (none, srv) => { s with srv, reactor := .inHandler }
  | (some none, srv) => { s with srv, reactor := fr.resume }
  | (some (some c), srv) => { s with srv, reactor := .sockopt fr c }

/-- The reactor after the `SO_ERROR` part. -/
def afterSockopt (s : State) (fr : Frame) (c : ConnPtr) : Bool × Server → State
  | (false, srv) => { s with srv, reactor := fr.resume }
  | (true, srv) => { s with srv, reactor := .read fr c }

/-- The reactor after the receiving part of `event_read`. -/
def afterRead (s : State) (fr : Frame) (c : ConnPtr) : Server.Received × Server → State
  | (.looping, srv) => { s with srv, reactor := .inHandler }
  | (.finished, srv) => { s with srv, reactor := .write fr c }
  | (.item item, srv) =>
    { s with srv, reactor := .push fr c item, history := .read item :: s.history }

/-- The reactor after `event_write`, the end of the callback. -/
def afterWrite (s : State) (fr : Frame) : Bool × Server → State
  | (false, srv) => { s with srv, reactor := .inHandler }
  | (true, srv) => { s with srv, reactor := fr.resume }

/-- One step; `none` when the label is not enabled. -/
def step (s : State) : Label → Option State
  | .wait batch =>
    match s.reactor with
    | .blocked =>
      if s.srv.kernel.Reports batch then
        some { s with
          srv := s.srv.epollWait batch
          reactor := if batch.length > 0 then .test ⟨0, batch.length, 0, .out⟩ else .blocked }
      else none
    | _ => none
  | .test =>
    match s.reactor with
    | .test fr => some { s with reactor := fr.dispatch s.srv.event }
    | _ => none
  | .accept input =>
    match s.reactor with
    | .accept fr => some (afterAccept s fr (s.srv.serverAccept input))
    | _ => none
  | .sockopt answer =>
    match s.reactor with
    | .sockopt fr c => some (afterSockopt s fr c (s.srv.callbackSockopt c answer))
    | _ => none
  | .read input =>
    match s.reactor with
    | .read fr c =>
      if hasAny eventReadBits fr.events then
        some (afterRead s fr c (s.srv.eventReadRecv c input))
      else some { s with reactor := .write fr c }
    | _ => none
  | .push =>
    match s.reactor with
    | .push fr c item =>
      some { s with
        srv := s.srv.rqueuePush item
        reactor := .post fr c
        history := .push item :: s.history }
    | _ => none
  | .post =>
    match s.reactor with
    | .post fr c => some { s with srv := s.srv.rqueuePost, reactor := .write fr c }
    | _ => none
  | .write script =>
    match s.reactor with
    | .write fr c =>
      if hasAny eventWriteBits fr.events then
        some (afterWrite s fr (s.srv.eventWrite c script))
      else some { s with reactor := fr.resume }
    | _ => none
  | .arrive a => some { s with srv := { s.srv with kernel := s.srv.kernel.arrive a } }
  | .send c data len granted =>
    if c < s.srv.nconn then some { s with srv := s.srv.serverSend c data len granted } else none
  | .worker w => s.serverProcess w
  | .interrupt w =>
    match s.workers[w]? with
    | some .wait => some (s.setWorker w .size)
    | _ => none

/-- `MAX_WORK_THREAD`. -/
def maxWorkThread : Nat := 5

/-- `StartServer` on any memory, with any number of workers: the loops start only after
`Server_Listen` succeeded. -/
def startWith (memory : ConnPtr → ConnObj) (event : Nat → EpollEvent) (workers : Nat)
    (input : Server.ListenInput) : State :=
  match (Server.serverCreate memory event).serverListen input with
  | (ret, srv) =>
    if ret < 0 then ⟨srv, .stopped, [], []⟩
    else ⟨srv, .blocked, List.replicate workers .wait, []⟩

/-- `StartServer`. -/
def startServer (memory : ConnPtr → ConnObj) (event : Nat → EpollEvent)
    (input : Server.ListenInput) : State := startWith memory event maxWorkThread input

/-- The states a server may start in, whatever memory holds. -/
def Started (s : State) : Prop :=
  ∃ memory event workers input, s = startWith memory event workers input

end EpollNet
