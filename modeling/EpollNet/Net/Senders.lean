import EpollNet.Net.Machine

/-!
# `ServerSend` in two steps

A thread that calls `ServerSend` stores the payload in one step and changes the interest in
another, so that the reactor can run between the two. Everything else steps as in the running
server, with every `event_write` one step.
-/

namespace EpollNet

/-- The server with threads that may be between the two steps of a `ServerSend`. -/
structure Split where
  /-- Reactor, workers and kernel. -/
  base : State
  /-- The threads that send, each with the connection whose interest it is about to change. -/
  senders : List (Option ConnPtr)

/-- A step of a sending thread, or any other. -/
inductive SplitLabel where
  /-- Any step but a whole `ServerSend`. -/
  | base (l : Label)
  /-- A thread calls `ServerSend` and stores the payload, its `malloc`s succeeding. -/
  | store (t : Nat) (c : ConnPtr) (data : Memory) (len : Int)
  /-- It changes the interest and returns. -/
  | modify (t : Nat)

namespace Split

/-- The first step of `ServerSend` in thread `t`. Its `len` is an `int`. -/
def store (s : Split) (t : Nat) (c : ConnPtr) (data : Memory) (len : Int) : Option Split :=
  match s.senders[t]? with
  | some none =>
    if c < s.base.srv.nconn ∧ len < 2 ^ 31 then
      match s.base.srv.serverSendStore c (some data) len true with
      | (false, _) => some s
      | (true, srv) =>
        some { base := { s.base with srv }, senders := s.senders.set t (some c) }
    else none
  | _ => none

/-- Its second step. -/
def modify (s : Split) (t : Nat) : Option Split :=
  match s.senders[t]? with
  | some (some c) =>
    some {
      base := { s.base with srv := (s.base.srv.epollEventModifyConn c eventWriteBits).2 }
      senders := s.senders.set t none }
  | _ => none

/-- One step; `none` when the label is not enabled. -/
def step (s : Split) : SplitLabel → Option Split
  | .base (.send _ _ _ _) => none
  | .base l => (EpollNet.step s.base l).map fun base => { s with base }
  | .store t c data len => s.store t c data len
  | .modify t => s.modify t

/-- The states a server with any number of sending threads may start in. -/
def Started (s : Split) : Prop :=
  EpollNet.Started s.base ∧ ∃ threads, s.senders = List.replicate threads none

/-- No thread is between the two steps of a `ServerSend`. -/
def Quiet (s : Split) : Prop := ∀ sender ∈ s.senders, sender = none

instance (s : Split) : Decidable s.Quiet := by
  unfold Quiet
  infer_instance

end Split

end EpollNet
