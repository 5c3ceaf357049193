import EpollNet.Net.Streams

/-!
# What a run shows of its replies

A reply enters the server when `ServerSend` copies it for a connected object, and leaves it in the
bytes that `write` makes a client's socket accept. The first is named by the accept that holds the
object, the others by the accept that returned the socket, and both are read off each step: the
copy from the arguments of `ServerSend`, the bytes from the calls the step adds to the history.
-/

namespace EpollNet

open EpollNet.Basis

/-- The calls made between two states, oldest first. -/
def State.callsUntil (s s' : State) : List Call :=
  (s'.srv.kernel.trace.take (s'.srv.kernel.trace.length - s.srv.kernel.trace.length)).reverse

/-- The bytes a call of `write` makes a client's socket accept. -/
def Call.given (sock : Fd → Option Socket) : Call → List StreamEvent
  | .write fd _ took =>
    match sock fd with
    | some s => [.take s.client took]
    | none => []
  | _ => []

/-- The message `ServerSend` copies: `len` bytes from `data` on, unless `malloc` fails. -/
def sendTaken (s : Server) (c : ConnPtr) (data : Option Memory) (len : Int) (granted : Bool) :
    List StreamEvent :=
  match data with
  | some m =>
    if len > 0 ∧ (s.conns c).activity = .connected ∧ granted then
      [.put (s.client c) (m.copy len.toNat)]
    else []
  | none => []

/-- The replies that enter or leave the server with a step. -/
def replied (s : State) : Label → List StreamEvent
  | .send c data len granted => sendTaken s.srv c data len granted
  | .write script =>
    match step s (.write script) with
    | some s' => (s.callsUntil s').flatMap (Call.given s.srv.kernel.sock)
    | none => []
  | .wait _ | .test | .accept _ | .sockopt _ | .read _ | .push | .post | .arrive _ | .worker _
  | .interrupt _ => []

end EpollNet
