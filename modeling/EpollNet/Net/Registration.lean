import EpollNet.Net.Machine

/-!
# The first entry of the event array

`epollEvent_addConn` and `epollEvent_modifyConn` build the argument of `epoll_ctl` in the first
entry of `evb->event`, the array `epoll_wait` fills and the loop of `epollEvent_wait` reads. Here
each store into that entry, each load of an entry and each `epoll_ctl` is a step of its own, and
any number of threads call `ServerSend` while the reactor runs. What the handlers do apart from
that is one step each, with the functions of the server's model.
-/

namespace EpollNet

/-! ## Registration calls -/

/-- One access to the first entry. -/
inductive EvOp where
  /-- `evb->event->events = events`. -/
  | store (events : BitVec 32)
  /-- The load of `evb->event->events |= events`. -/
  | load
  /-- Its store. -/
  | orStore (events : BitVec 32)
  /-- `evb->event->data.ptr = conn`. -/
  | setPtr (conn : ConnPtr)
deriving DecidableEq

/-- What an access does to the entry and to the value loaded. -/
def EvOp.exec (ev : EpollEvent) (acc : BitVec 32) : EvOp → EpollEvent × BitVec 32
  | .store events => ({ ev with events }, acc)
  | .load => (ev, ev.events)
  | .orStore events => ({ ev with events := acc ||| events }, acc)
  | .setPtr conn => ({ ev with ptr := conn }, acc)

/-- The accesses of `epollEvent_addConn` ahead of its `epoll_ctl`. -/
def addOps (conn : ConnPtr) (events : BitVec 32) : List EvOp := [.store events, .setPtr conn]

/-- Those of `epollEvent_modifyConn`. -/
def modifyOps (conn : ConnPtr) (flags : BitVec 32) : List EvOp :=
  .store epollEt ::
    ((if hasAny flags eventReadBits then [.load, .orStore epollIn] else []) ++
      (if hasAny flags eventWriteBits then [.load, .orStore epollOut] else []) ++ [.setPtr conn])

/-- A call of one of the two in progress. -/
structure RegCall where
  /-- Its `conn`. -/
  conn : ConnPtr
  /-- The mask its caller asked for; bookkeeping of the model. -/
  mask : BitVec 32
  /-- Accesses still to come; with none left `epoll_ctl` is next. -/
  ops : List EvOp
  /-- Value loaded by `|=`. -/
  acc : BitVec 32
  /-- The first store is done; bookkeeping of the model. -/
  begun : Bool

/-- Entry of `epollEvent_addConn`. -/
def RegCall.add (conn : ConnPtr) (events : BitVec 32) : RegCall :=
  ⟨conn, events, addOps conn events, 0, false⟩

/-- Entry of `epollEvent_modifyConn`. -/
def RegCall.modify (conn : ConnPtr) (flags : BitVec 32) : RegCall :=
  ⟨conn, Server.modifyMask flags, modifyOps conn flags, 0, false⟩

/-! ## The threads -/

/-- Where the reactor is, with `fr.test` the test a load belongs to. -/
inductive Place where
  /-- Blocked in `epoll_wait`. -/
  | blocked
  /-- About to load the entry's events for a test that dispatches. -/
  | test (fr : Frame)
  /-- About to load them for the `EPOLLERR` test. -/
  | err (fr : Frame)
  /-- About to load the entry's `data.ptr` and call back. -/
  | load (fr : Frame)
  /-- About to run `Server_Accept`. -/
  | accept (fr : Frame)
  /-- In the `epollEvent_addConn` of `Server_Accept`. -/
  | adding (fr : Frame) (call : RegCall) (clientSock : Fd)
  /-- About to read `SO_ERROR`. -/
  | sockopt (fr : Frame) (c : ConnPtr)
  /-- At the test of `EVENT_READ`. -/
  | read (fr : Frame) (c : ConnPtr)
  /-- At the test of `EVENT_WRITE`. -/
  | write (fr : Frame) (c : ConnPtr)
  /-- In the `epollEvent_modifyConn` of `event_write`. -/
  | modifying (fr : Frame) (call : RegCall)
  /-- Inside a handler that has not returned. -/
  | inHandler
  /-- `StartServer` returned `NULL`. -/
  | stopped

/-- Where a callback returns to, or a failed test continues. -/
def Frame.back (fr : Frame) : Place :=
  match fr.test with
  | .out => .err { fr with test := .inp }
  | .inp =>
    if fr.i + 1 < fr.n then .test { fr with i := fr.i + 1, test := .out } else .blocked

/-- The server with its registration calls taken apart. -/
structure Regs where
  /-- Memory and kernel. -/
  srv : Server
  /-- Reactor thread. -/
  reactor : Place
  /-- Threads calling `ServerSend`, each with its registration call if it is in one. -/
  senders : List (Option RegCall)
  /-- The object `Server_Listen` or `Server_Accept` last stored each descriptor in; bookkeeping
  of the model. -/
  holder : Fd → ConnPtr
  /-- The mask asked for by the caller of the last `epoll_ctl` that stored an interest for the
  descriptor; bookkeeping of the model. -/
  asked : Fd → BitVec 32
  /-- The holder of the descriptor reported in each entry of the batch; bookkeeping of the
  model. -/
  reported : Nat → ConnPtr
  /-- The connection each dispatched entry was reported for and the one it was dispatched to,
  newest first; bookkeeping of the model. -/
  dispatches : List (ConnPtr × ConnPtr)

namespace Regs

/-- One access by a call that has one to come: the server and the call afterwards. -/
def access (srv : Server) (call : RegCall) (op : EvOp) (rest : List EvOp) : Server × RegCall :=
  match op.exec (srv.event 0) call.acc with
  | (ev, acc) =>
    ({ srv with event := Function.update srv.event 0 ev },
      { call with ops := rest, acc, begun := true })

/-- The `epoll_ctl` of `epollEvent_modifyConn`. -/
def ctlModify (s : Regs) (call : RegCall) : Regs :=
  match s.srv.kernel.ctlMod (s.srv.conns call.conn).fd (s.srv.event 0) with
  | (status, kernel) =>
    { s with
      srv := { s.srv with kernel }
      asked := if status = 0 then Function.update s.asked (s.srv.conns call.conn).fd call.mask
        else s.asked }

/-- The `epoll_ctl` of `epollEvent_addConn` and what `Server_Accept` does about its result. -/
def ctlAdd (s : Regs) (fr : Frame) (call : RegCall) (clientSock : Fd) (granted : Bool) : Regs :=
  match s.srv.kernel.ctlAdd (s.srv.conns call.conn).fd (s.srv.event 0) granted with
  | (status, kernel) =>
    if status ≠ 0 then
      { s with
        srv := (({ s.srv with kernel } : Server).setConn call.conn).acceptErr clientSock
        reactor := fr.back }
    else
      { s with
        srv := { s.srv with kernel }
        asked := Function.update s.asked (s.srv.conns call.conn).fd call.mask
        reactor := .sockopt fr call.conn }

end Regs

/-! ## Steps -/

/-- A step of a thread or the kernel. -/
inductive RegLabel where
  /-- `epoll_wait` fills the array. -/
  | wait (batch : List (Fd × BitVec 32))
  /-- The reactor loads from an entry. -/
  | load
  /-- `Server_Accept` up to its registration. -/
  | accept (input : Server.AcceptInput)
  /-- The `SO_ERROR` part of the callback. -/
  | sockopt (answer : Option Int)
  /-- `event_read`, or its skipping. -/
  | read (input : Server.ReadInput)
  /-- `event_write` up to its registration, or its skipping. -/
  | write (script : List (Except Errno Nat))
  /-- The reactor's registration call steps; the kernel may refuse to add. -/
  | reg (granted : Bool)
  /-- Bytes or a FIN arrive. -/
  | arrive (a : Kernel.Arrival)
  /-- A thread calls `ServerSend`. -/
  | send (t : Nat) (c : ConnPtr) (data : Option Memory) (len : Int) (granted : Bool)
  /-- Its registration call steps. -/
  | sendReg (t : Nat)

namespace Regs

/-- `epoll_wait` returns. -/
def wait (s : Regs) (batch : List (Fd × BitVec 32)) : Regs :=
  { s with
    srv := s.srv.epollWait batch
    reported := fun i =>
      match batch[i]? with
      | some (fd, _) => s.holder fd
      | none => s.reported i
    reactor := if batch.length > 0 then .test ⟨0, batch.length, 0, .out⟩ else .blocked }

/-- A load by the loop of `epollEvent_wait`. -/
def load (s : Regs) : Option Regs :=
  match s.reactor with
  | .test fr =>
    match fr.test with
    | .out =>
      if hasAny (s.srv.event fr.i).events (epollOut ||| epollHup) then
        some { s with reactor := .load { fr with events := fr.events ||| eventWriteBits } }
      else some { s with reactor := fr.back }
    | .inp =>
      if hasAny (s.srv.event fr.i).events (epollIn ||| epollHup) then
        some { s with reactor := .load { fr with events := fr.events ||| eventReadBits } }
      else some { s with reactor := fr.back }
  | .err fr =>
    if hasAny (s.srv.event fr.i).events epollErr then
      some { s with reactor := .test { fr with events := fr.events ||| eventErrBits } }
    else some { s with reactor := .test fr }
  | .load fr =>
    some { s with
      dispatches := (s.reported fr.i, (s.srv.event fr.i).ptr) :: s.dispatches
      reactor :=
        if (s.srv.event fr.i).ptr = serverConn then .accept fr
        else .sockopt fr (s.srv.event fr.i).ptr }
  | _ => none

/-- A step of the reactor's registration call. -/
def reg (s : Regs) (granted : Bool) : Option Regs :=
  match s.reactor with
  | .adding fr call clientSock =>
    match call.ops with
    | op :: rest =>
      match access s.srv call op rest with
      | (srv, call) => some { s with srv, reactor := .adding fr call clientSock }
    | [] => some (s.ctlAdd fr call clientSock granted)
  | .modifying fr call =>
    match call.ops with
    | op :: rest =>
      match access s.srv call op rest with
      | (srv, call) => some { s with srv, reactor := .modifying fr call }
    | [] => some { s.ctlModify call with reactor := fr.back }
  | _ => none

/-- A step of a sender's registration call. -/
def sendReg (s : Regs) (t : Nat) : Option Regs :=
  match s.senders[t]? with
  | some (some call) =>
    match call.ops with
    | op :: rest =>
      match access s.srv call op rest with
      | (srv, call) => some { s with srv, senders := s.senders.set t (some call) }
    | [] => some { s.ctlModify call with senders := s.senders.set t none }
  | _ => none

/-- The reactor after `Server_Accept` came to its registration, or gave up. -/
def afterAccept (s : Regs) (fr : Frame) : Option (Option (ConnPtr × Fd)) × Server → Regs
  | (none, srv) => { s with srv, reactor := .inHandler }
  | (some none, srv) => { s with srv, reactor := fr.back }
  | (some (some (c, clientSock)), srv) =>
    { s with
      srv
      reactor := .adding fr (.add c Server.acceptMask) clientSock
      holder := Function.update s.holder clientSock c }

/-- The reactor after `event_write` came to its registration, or had nothing to do. -/
def afterWrite (s : Regs) (fr : Frame) (c : ConnPtr) :
    Option (Option (BitVec 32)) × Server → Regs
  | (none, srv) => { s with srv, reactor := .inHandler }
  | (some none, srv) => { s with srv, reactor := fr.back }
  | (some (some flags), srv) => { s with srv, reactor := .modifying fr (.modify c flags) }

/-- One step; `none` when the label is not enabled. -/
def step (s : Regs) : RegLabel → Option Regs
  | .wait batch =>
    match s.reactor with
    | .blocked => if s.srv.kernel.Reports batch then some (s.wait batch) else none
    | _ => none
  | .load => s.load
  | .accept input =>
    match s.reactor with
    | .accept fr => some (s.afterAccept fr (s.srv.acceptConn input))
    | _ => none
  | .sockopt answer =>
    match s.reactor with
    | .sockopt fr c =>
      match s.srv.callbackSockopt c answer with
      | (false, srv) => some { s with srv, reactor := fr.back }
      | (true, srv) => some { s with srv, reactor := .read fr c }
    | _ => none
  | .read input =>
    match s.reactor with
    | .read fr c =>
      if hasAny eventReadBits fr.events then
        match s.srv.eventRead c input with
        | (false, srv) => some { s with srv, reactor := .inHandler }
        | (true, srv) => some { s with srv, reactor := .write fr c }
      else some { s with reactor := .write fr c }
    | _ => none
  | .write script =>
    match s.reactor with
    | .write fr c =>
      if hasAny eventWriteBits fr.events then
        some (s.afterWrite fr c (s.srv.eventWriteSend c script))
      else some { s with reactor := fr.back }
    | _ => none
  | .reg granted => s.reg granted
  | .arrive a => some { s with srv := { s.srv with kernel := s.srv.kernel.arrive a } }
  | .send t c data len granted =>
    match s.senders[t]? with
    | some none =>
      if c < s.srv.nconn then
        match s.srv.serverSendStore c data len granted with
        | (false, srv) => some { s with srv }
        | (true, srv) =>
          some { s with srv, senders := s.senders.set t (some (.modify c eventWriteBits)) }
      else none
    | _ => none
  | .sendReg t => s.sendReg t

/-- `StartServer` on any memory, with any number of threads that may send. -/
def startRegs (memory : ConnPtr → ConnObj) (event : Nat → EpollEvent) (threads : Nat)
    (input : Server.ListenInput) : Regs :=
  let s := startWith memory event 0 input
  { srv := s.srv
    reactor :=
      match s.reactor with
      | .stopped => .stopped
      | _ => .blocked
    senders := List.replicate threads none
    holder := fun _ => serverConn
    asked := fun _ => epollIn
    reported := fun _ => serverConn
    dispatches := [] }

/-- The states a server may start in, whatever memory holds. -/
def Started (s : Regs) : Prop :=
  ∃ memory event threads input, s = startRegs memory event threads input

end Regs

end EpollNet
