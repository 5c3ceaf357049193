import EpollNet.Basis.Channels
import EpollNet.Net.Machine

/-!
# What a run shows of its byte streams

A client's bytes enter the server when they arrive on its socket, the first ones with the accept,
and leave it when a worker hands them to `procread`. Both are read off each step: the functions
here go through the same loops as the handlers, answer by answer, and name the client each byte
came from by the accept that returned its socket.
-/

namespace EpollNet

open EpollNet.Basis

/-- Bytes that enter or leave the server, by client. -/
abbrev StreamEvent := ChannelEvent Nat UInt8

namespace Kernel

/-- The bytes an arrival brings. -/
def heard (k : Kernel) (a : Arrival) : List StreamEvent :=
  match k.sock a.fd with
  | none => []
  | some s => if s.fin then [] else [.put s.client a.bytes]

/-- The bytes several arrivals bring. -/
def heardAll : Kernel → List Arrival → List StreamEvent
  | _, [] => []
  | k, a :: rest => k.heard a ++ (k.arrive a).heardAll rest

end Kernel

/-- The bytes that arrive while the loop of `readData` goes through its answers. -/
def readHeard (fd : Fd) (len : Nat) : List ReadAnswer → Nat → Kernel → List StreamEvent
  | [], _, _ => []
  | answer :: rest, nLen, k =>
    k.heardAll answer.arrivals ++
      match (k.arriveAll answer.arrivals).read fd len answer.result with
      | (.ok got, k) =>
        if got.length > 0 then
          if nLen + got.length = len then readHeard fd len rest (nLen + got.length) k else []
        else []
      | (.error .eagain, _) => []
      | (.error .eintr, k) | (.error .other, k) => readHeard fd len rest nLen k

/-- The bytes that come with the connection the loop of `Server_Accept` accepts. -/
def acceptHeard (listening : Fd) : List (Except Errno Kernel.Incoming) → Kernel → List StreamEvent
  | [], _ => []
  | answer :: rest, k =>
    match answer, (k.accept listening answer).1 with
    | .ok inc, .ok _ => [.put (k.accepted + 1) inc.bytes]
    | _, .error .eintr => acceptHeard listening rest k
    | _, _ => []

/-- The bytes `procread` is shown with an item: `recvlen` of them from `recvptr` on. -/
def Item.received (item : Item) : List UInt8 :=
  match item.recvptr with
  | some b => b.str.buf.take item.recvlen
  | none => []

/-- The bytes that enter or leave the server with a step. -/
def observed (s : State) : Label → List StreamEvent
  | .arrive a => s.srv.kernel.heard a
  | .accept input =>
    match s.reactor with
    | .accept _ => acceptHeard (s.srv.conns serverConn).fd input.script s.srv.kernel
    | _ => []
  | .read input =>
    match s.reactor with
    | .read fr c =>
      if hasAny eventReadBits fr.events then
        readHeard (s.srv.conns c).fd Server.recvbufferSize input.script 0 s.srv.kernel
      else []
    | _ => []
  | .worker w =>
    match s.workers[w]? with
    | some (.call item) => [.take item.client item.received]
    | _ => []
  | .wait _ | .test | .sockopt _ | .push | .post | .write _ | .send .. | .interrupt _ => []

end EpollNet
