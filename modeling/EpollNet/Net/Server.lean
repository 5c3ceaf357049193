import EpollNet.Net.ConnObj

/-!
# The server object and its handlers

`queue.c`, `lock.c`, `connmgr.c`, `epollevent.c`, `epoll.c` and `server.c`, each function as
its source computes it on the memory the server object reaches. Handlers that the source runs
in one piece but that several threads may interleave with are cut where another thread can
step in: `eventReadRecv` ends before the item is pushed, `eventWriteSend`, `serverSendStore`
and `acceptConn` end before the registration changes. The whole handler is then defined from
its parts.
-/

namespace EpollNet

/-! ## Queues and semaphores -/

/-- `dataQueue_push`. -/
def dataQueuePush {α : Type} (queue : List α) (data : α) : List α := queue ++ [data]

/-- `dataQueue_pop`, `none` being `NULL`. -/
def dataQueuePop {α : Type} : List α → Option α × List α
  | [] => (none, [])
  | data :: rest => (some data, rest)

/-- `dataQueue_size`: the list's `unsigned int` counter. -/
def dataQueueSize {α : Type} (queue : List α) : Nat := queue.length % 2 ^ 32

/-- `SEM_VALUE_MAX`. -/
def semValueMax : Nat := 2 ^ 31 - 1

/-- `locker_post`: `sem_post` fails with `EOVERFLOW` at the largest value, and no caller looks
at the result. -/
def lockerPost (sem : Nat) : Nat := if sem < semValueMax then sem + 1 else sem

/-- `locker_semwait` once the semaphore lets the caller through; `none` while it blocks. -/
def lockerSemwait (sem : Nat) : Option Nat := if 0 < sem then some (sem - 1) else none

/-! ## The server object -/

/-- `struct tagConnItem`, without the send fields nothing uses. -/
structure Item where
  /-- Address the item was allocated at. -/
  addr : Nat
  /-- `connobj`. -/
  connobj : ConnPtr
  /-- `recvptr`. -/
  recvptr : Option Buf
  /-- `recvlen`. -/
  recvlen : Nat
  /-- The accept whose socket the bytes were read from; bookkeeping of the model. -/
  client : Nat
deriving DecidableEq

/-- `EVENT_READ`. -/
def eventReadBits : BitVec 32 := 0x0000ff#32
/-- `EVENT_WRITE`. -/
def eventWriteBits : BitVec 32 := 0x00ff00#32
/-- `EVENT_ERR`. -/
def eventErrBits : BitVec 32 := 0xff0000#32

/-- `serverobj->connobj`, the address of the listening `ConnObj`. -/
def serverConn : ConnPtr := 0

/-- What `struct tagServerObj` reaches, and the kernel. -/
structure Server where
  /-- Kernel state. -/
  kernel : Kernel
  /-- Memory of the `ConnObj`s, arbitrary where none was allocated. -/
  conns : ConnPtr → ConnObj
  /-- Next `ConnObj` address. -/
  nconn : ConnPtr
  /-- Queue of the connection pool. -/
  pool : List ConnPtr
  /-- `evb->event`. -/
  event : Nat → EpollEvent
  /-- Receive queue. -/
  rqueue : List Item
  /-- Semaphore of the receive queue's locker. -/
  sem : Nat
  /-- Allocator. -/
  heap : Heap
  /-- The accept that last took each `ConnObj`; bookkeeping of the model. -/
  client : ConnPtr → Nat
  /-- Buffers stored by `ServerSend`, newest first, each with its `ConnObj` and the accept
  current there; bookkeeping of the model. -/
  sent : List (ConnPtr × Nat × Buf)

namespace Server

/-! ## `connobj.c` and `connmgr.c` -/

/-- `closeConnObj`: descriptor zero is not closed. -/
def closeConnObj (s : Server) (c : ConnPtr) : Server :=
  if (s.conns c).fd > 0 then
    { s with
      kernel := s.kernel.close (s.conns c).fd
      conns := Function.update s.conns c { s.conns c with activity := .connclosed, fd := -1 } }
  else s

/-- `setConn`: reset the object and put it in the pool. -/
def setConn (s : Server) (c : ConnPtr) : Server :=
  { s with
    conns := Function.update s.conns c (connobjReset (s.conns c))
    pool := dataQueuePush s.pool c }

/-- `getConn`: take from the pool, or create. -/
def getConn (s : Server) (granted : Bool) : Option ConnPtr × Server :=
  match dataQueuePop s.pool with
  | (some c, rest) => (some c, { s with pool := rest })
  | (none, rest) =>
    if granted then
      (some s.nconn, { s with
        pool := rest
        nconn := s.nconn + 1
        conns := Function.update s.conns s.nconn
          (connobjReset (createNewConnObj (s.conns s.nconn))) })
    else (none, { s with pool := rest })

/-- The freeing loop of `ConnMgr_Destory` with `count` rounds to go: the addresses freed. -/
def freeLoop : Nat → List ConnPtr → List ConnPtr
  | 0, _ => []
  | count + 1, queue =>
    match dataQueuePop queue with
    | (some c, rest) => c :: freeLoop count rest
    | (none, rest) => freeLoop count rest

/-- `ConnMgr_Destory`: the addresses freed. The size is stored in an `int`, and a negative one
makes no rounds. -/
def connMgrDestory (s : Server) : List ConnPtr :=
  freeLoop (if dataQueueSize s.pool < 2 ^ 31 then dataQueueSize s.pool else 0) s.pool

/-! ## `epollevent.c` -/

/-- `epollEvent_addConn`, which builds its argument in the first entry of `evb->event`. -/
def epollEventAddConn (s : Server) (c : ConnPtr) (events : BitVec 32) (granted : Bool) :
    Int × Server :=
  let ev : EpollEvent := ⟨events, c⟩
  let (status, kernel) := s.kernel.ctlAdd (s.conns c).fd ev granted
  (status, { s with kernel, event := Function.update s.event 0 ev })

/-- `epollEvent_delConn`. -/
def epollEventDelConn (s : Server) (c : ConnPtr) : Int × Server :=
  let (status, kernel) := s.kernel.ctlDel (s.conns c).fd
  (status, { s with kernel })

/-- The mask `epollEvent_modifyConn` builds. -/
def modifyMask (flags : BitVec 32) : BitVec 32 :=
  (epollEt ||| if hasAny flags eventReadBits then epollIn else 0) |||
    if hasAny flags eventWriteBits then epollOut else 0

/-- `epollEvent_modifyConn`, which builds its argument in the same entry. -/
def epollEventModifyConn (s : Server) (c : ConnPtr) (flags : BitVec 32) : Int × Server :=
  let ev : EpollEvent := ⟨modifyMask flags, c⟩
  let (status, kernel) := s.kernel.ctlMod (s.conns c).fd ev
  (status, { s with kernel, event := Function.update s.event 0 ev })

/-- `epoll_wait` filling `evb->event` with a batch. -/
def epollWait (s : Server) (batch : List (Fd × BitVec 32)) : Server :=
  { s with
    kernel := s.kernel.reported batch
    event := fun i =>
      match batch[i]? with
      | some (fd, mask) =>
        match s.kernel.reg fd with
        | some ev => ⟨mask, ev.ptr⟩
        | none => s.event i
      | none => s.event i }

/-! ## `epoll.c` -/

/-- `event_write` up to the registration change: `none` while `sendData` loops, `some none` when
nothing is to be sent, otherwise the interest to register. -/
def eventWriteSend (s : Server) (c : ConnPtr) (script : List (Except Errno Nat)) :
    Option (Option (BitVec 32)) × Server :=
  match (s.conns c).sendptr with
  | none => (some none, s)
  | some b =>
    if (s.conns c).sendlen > 0 then
      let out := sendData (s.conns c) b script s.kernel
      let s := { s with kernel := out.kernel }
      match out.ret with
      | none => (none, s)
      | some datalen =>
        if datalen = -2 then (some (some eventWriteBits), s)
        else if datalen = -1 then (some (some eventReadBits), s)
        else
          (some (some eventReadBits), { s with
            heap := s.heap.free b.addr
            conns := Function.update s.conns c { s.conns c with sendptr := none, sendlen := 0 } })
    else (some none, s)

/-- `event_write`; `false` while it has not returned. -/
def eventWrite (s : Server) (c : ConnPtr) (script : List (Except Errno Nat)) : Bool × Server :=
  match s.eventWriteSend c script with
  | (none, s) => (false, s)
  | (some none, s) => (true, s)
  | (some (some flags), s) => (true, (s.epollEventModifyConn c flags).2)

/-- `sizeof(recvbuffer)`. -/
def recvbufferSize : Nat := 1024 * 16

/-- The zeroed `recvbuffer` and whatever memory lies behind it. -/
def recvbuffer (beyond : Memory) : Memory := fun i => if i < recvbufferSize then 0 else beyond i

/-- What one `event_read` meets: the kernel's answers, the memory behind its buffer and the
outcomes of its two allocations. -/
structure ReadInput where
  /-- Answers to `read`. -/
  script : List ReadAnswer
  /-- Memory from `recvbuffer` on, used beyond its end. -/
  beyond : Memory
  /-- `CStr_Malloc` succeeds. -/
  strGranted : Bool
  /-- The item's `malloc` succeeds. -/
  itemGranted : Bool

/-- How `event_read` leaves its receiving part. -/
inductive Received where
  /-- Still inside `readData`. -/
  | looping
  /-- Returned without an item. -/
  | finished
  /-- About to push an item. -/
  | item (item : Item)

/-- `event_read` up to the push. -/
def eventReadRecv (s : Server) (c : ConnPtr) (input : ReadInput) : Received × Server :=
  let out := readData (s.conns c) (recvbuffer input.beyond) recvbufferSize input.script s.kernel
  let client := ((s.kernel.sock (s.conns c).fd).map Socket.client).getD 0
  let s := { s with kernel := out.kernel }
  match out.ret with
  | none => (.looping, s)
  | some recvlen =>
    if recvlen = 0 then
      (.finished, (((s.epollEventDelConn c).2).closeConnObj c).setConn c)
    else if recvlen > 0 then
      let (dptr, heap) := cStrMalloc s.heap input.strGranted (some out.ptr) recvlen
      if input.itemGranted then
        (.item ⟨heap.next, c, dptr, recvlen.toNat, client⟩,
          { s with heap := { heap with next := heap.next + 1 } })
      else (.finished, { s with heap })
    else (.finished, s)

/-- The locked push of `event_read`, the `malloc` of its list node succeeding. -/
def rqueuePush (s : Server) (item : Item) : Server :=
  { s with rqueue := dataQueuePush s.rqueue item }

/-- The push with the outcome of that `malloc`: without a node a queue that has a tail follows
`NULL`, which is `none`, and an empty one stays empty, though it counts an item. -/
def rqueuePushNode (s : Server) (item : Item) (nodeGranted : Bool) : Option Server :=
  if nodeGranted then some (s.rqueuePush item)
  else if s.rqueue.isEmpty then some s else none

/-- The post of `event_read`. -/
def rqueuePost (s : Server) : Server := { s with sem := lockerPost s.sem }

/-- `event_read`, its list node granted; `false` while it has not returned. -/
def eventRead (s : Server) (c : ConnPtr) (input : ReadInput) : Bool × Server :=
  match s.eventReadRecv c input with
  | (.looping, s) => (false, s)
  | (.finished, s) => (true, s)
  | (.item item, s) => (true, (s.rqueuePush item).rqueuePost)

/-- `event_read` with the outcome of the `malloc` in its push; `none` when it follows `NULL`. -/
def eventReadNode (s : Server) (c : ConnPtr) (input : ReadInput) (nodeGranted : Bool) :
    Option (Bool × Server) :=
  match s.eventReadRecv c input with
  | (.looping, s) => some (false, s)
  | (.finished, s) => some (true, s)
  | (.item item, s) =>
    (s.rqueuePushNode item nodeGranted).map fun s => (true, s.rqueuePost)

/-- The `SO_ERROR` part of `epollEvent_callback`: `false` when the call fails and the callback
returns. On a pending error the descriptor is closed and the number kept. -/
def callbackSockopt (s : Server) (c : ConnPtr) (answer : Option Int) : Bool × Server :=
  match s.kernel.getsockopt (s.conns c).fd answer with
  | (none, kernel) => (false, { s with kernel })
  | (some val, kernel) =>
    if val = 0 then
      (true, { s with
        kernel
        conns := Function.update s.conns c { s.conns c with activity := .connected } })
    else
      (true, { s with
        kernel := kernel.close (s.conns c).fd
        conns := Function.update s.conns c { s.conns c with activity := .connclosed } })

/-! ## `server.c` -/

/-- What one `Server_Accept` meets. -/
structure AcceptInput where
  /-- Answers to `accept`. -/
  script : List (Except Errno Kernel.Incoming)
  /-- The `malloc` of a new `ConnObj` succeeds. -/
  connGranted : Bool
  /-- The kernel grants the epoll registration. -/
  granted : Bool

/-- The accepting loop of `Server_Accept`: `none` while it loops, `some none` on an error. -/
def acceptLoop (listening : Fd) :
    List (Except Errno Kernel.Incoming) → Kernel → Option (Option Fd) × Kernel
  | [], k => (none, k)
  | answer :: rest, k =>
    match k.accept listening answer with
    | (.ok fd, k) => (some (some fd), k)
    | (.error .eintr, k) => acceptLoop listening rest k
    | (.error _, k) => (some none, k)

/-- `sock_err` of `Server_Accept`: descriptor zero is not closed. -/
def acceptErr (s : Server) (clientSock : Fd) : Server :=
  if clientSock ≠ 0 then { s with kernel := s.kernel.close clientSock } else s

/-- `Server_Accept` up to the registration: the connection object and its descriptor. -/
def acceptConn (s : Server) (input : AcceptInput) :
    Option (Option (ConnPtr × Fd)) × Server :=
  match acceptLoop (s.conns serverConn).fd input.script s.kernel with
  | (none, kernel) => (none, { s with kernel })
  | (some none, kernel) => (some none, { s with kernel })
  | (some (some clientSock), kernel) =>
    match ({ s with kernel } : Server).getConn input.connGranted with
    | (none, s) => (some none, s.acceptErr clientSock)
    | (some c, s) =>
      (some (some (c, clientSock)), { s with
        conns := Function.update s.conns c
          { s.conns c with fd := clientSock, activity := .connecting }
        client := Function.update s.client c s.kernel.accepted })

/-- The interest `Server_Accept` registers. -/
def acceptMask : BitVec 32 := (epollEt ||| epollIn) ||| epollRdhup

/-- The registration of `Server_Accept` and what follows: on failure the object goes back to the
pool with the descriptor it was given, which is then closed. -/
def acceptAdd (s : Server) (c : ConnPtr) (clientSock : Fd) (granted : Bool) :
    Option ConnPtr × Server :=
  match s.epollEventAddConn c acceptMask granted with
  | (status, s) =>
    if status ≠ 0 then (none, (s.setConn c).acceptErr clientSock) else (some c, s)

/-- `Server_Accept`; the outer `none` while it has not returned, the inner one for `NULL`. -/
def serverAccept (s : Server) (input : AcceptInput) : Option (Option ConnPtr) × Server :=
  match s.acceptConn input with
  | (none, s) => (none, s)
  | (some none, s) => (some none, s)
  | (some (some (c, clientSock)), s) =>
    match s.acceptAdd c clientSock input.granted with
    | (result, s) => (some result, s)

/-- `ServerSend` up to the registration: whether it goes on to change it. -/
def serverSendStore (s : Server) (c : ConnPtr) (data : Option Memory) (len : Int)
    (granted : Bool) : Bool × Server :=
  if len > 0 ∧ (s.conns c).activity = .connected then
    let (dptr, heap) := cStrMalloc s.heap granted data len
    (true, { s with
      heap
      conns := Function.update s.conns c { s.conns c with sendptr := dptr, sendlen := len.toNat }
      sent := match dptr with
        | some b => (c, s.client c, b) :: s.sent
        | none => s.sent })
  else (false, s)

/-- `ServerSend`, whole. The source runs it in any thread and takes no lock: that nothing comes
between its test, its stores and its `epoll_ctl` is an assumption of the models in which it is one
step. -/
def serverSend (s : Server) (c : ConnPtr) (data : Option Memory) (len : Int) (granted : Bool) :
    Server :=
  match s.serverSendStore c data len granted with
  | (false, s) => s
  | (true, s) => (s.epollEventModifyConn c eventWriteBits).2

/-- Outcomes of the system calls of `Server_Listen`. -/
structure ListenInput where
  /-- Number offered by `socket`. -/
  socket : Option Fd
  /-- `setsockopt(SO_REUSEADDR)` succeeds. -/
  reuse : Bool
  /-- `bind` succeeds. -/
  bind : Bool
  /-- `listen` succeeds. -/
  listen : Bool
  /-- The kernel grants the epoll registration. -/
  granted : Bool

/-- `sock_err` of `Server_Listen`, which goes by `connobj->fd`. -/
def listenErr (s : Server) : Server :=
  if (s.conns serverConn).fd ≥ 0 then s.closeConnObj serverConn else s

/-- `Server_Listen`. -/
def serverListen (s : Server) (input : ListenInput) : Int × Server :=
  match s.kernel.socket input.socket with
  | (none, kernel) => (-1, ({ s with kernel } : Server).listenErr)
  | (some sock, kernel) =>
    let s := { s with
      kernel
      conns := Function.update s.conns serverConn { s.conns serverConn with fd := sock } }
    if input.reuse && input.bind && input.listen then
      (0, (s.epollEventAddConn serverConn epollIn input.granted).2)
    else (-1, s.listenErr)

/-- `Server_Create` on memory with any contents: one `ConnObj`, reset, and empty queues. -/
def serverCreate (memory : ConnPtr → ConnObj) (event : Nat → EpollEvent) : Server :=
  { kernel := .initial
    conns := Function.update memory serverConn
      (connobjReset (createNewConnObj (memory serverConn)))
    nconn := serverConn + 1
    pool := []
    event
    rqueue := []
    sem := 0
    heap := ⟨0, []⟩
    client := fun _ => 0
    sent := [] }

end Server

end EpollNet
