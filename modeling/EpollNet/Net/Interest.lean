import EpollNet.Net.Machine

/-!
# What a run shows of its interests

A client is registered for input or for output, and its object holds a reply or none. The two can
get out of step in two ways, both of which a step shows: a `write` fails with an error, and
`event_write` keeps the reply; or `ServerSend` gets no buffer, and asks for output all the same.
-/

namespace EpollNet

/-- The descriptor is registered with `EPOLLOUT`. -/
def Kernel.armedOut (k : Kernel) (fd : Fd) : Bool :=
  match k.reg fd with
  | some ev => hasAny ev.events epollOut
  | none => false

/-- What puts a client's interest and its replies out of step. -/
inductive Trouble where
  /-- A `write` to the client failed. -/
  | writeFailed (client : Nat)
  /-- `ServerSend` got no buffer for a reply to the client. -/
  | noBuffer (client : Nat)
deriving DecidableEq

/-- The `write` that fails in an `event_write`. -/
def writeTrouble (s : Server) (c : ConnPtr) (script : List (Except Errno Nat)) : List Trouble :=
  match (s.conns c).sendptr with
  | some b =>
    if (s.conns c).sendlen > 0 ∧ (sendData (s.conns c) b script s.kernel).ret = some (-1) then
      [.writeFailed (s.client c)]
    else []
  | none => []

/-- The allocation that fails in a `ServerSend`. -/
def sendTrouble (s : Server) (c : ConnPtr) (data : Option Memory) (len : Int) (granted : Bool) :
    List Trouble :=
  if len > 0 ∧ (s.conns c).activity = .connected ∧
      (cStrMalloc s.heap granted data len).1 = none then
    [.noBuffer (s.client c)]
  else []

/-- The troubles of a step. -/
def troubles (s : State) : Label → List Trouble
  | .write script =>
    match s.reactor with
    | .write fr c => if hasAny eventWriteBits fr.events then writeTrouble s.srv c script else []
    | _ => []
  | .send c data len granted => sendTrouble s.srv c data len granted
  | .wait _ | .test | .accept _ | .sockopt _ | .read _ | .push | .post | .arrive _ | .worker _
  | .interrupt _ => []

end EpollNet
