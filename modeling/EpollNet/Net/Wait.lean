import EpollNet.Net.Machine

/-!
# The loop of `epollEvent_wait`

The loop over a batch with any function in the place of `evb->cb`, on whatever memory the two share.
The machine runs the same tests one at a time, with the library's callback and other threads between
them; its frames carry the same locals.
-/

namespace EpollNet

/-- The loop under way: the memory, the local `events`, and the calls of `evb->cb` so far, each with
the pointer and the flags it was given. -/
structure Waiting (σ : Type) where
  /-- Memory the callback works on. -/
  mem : σ
  /-- `events`. -/
  events : BitVec 32
  /-- Calls made, oldest first. -/
  calls : List (ConnPtr × BitVec 32)

section

variable {σ : Type} (cb : σ → ConnPtr → BitVec 32 → σ) (event : σ → Nat → EpollEvent)

/-- A call of `evb->cb` with the flags gathered so far. -/
def Waiting.call (w : Waiting σ) (connobj : ConnPtr) : Waiting σ :=
  { w with mem := cb w.mem connobj w.events, calls := w.calls ++ [(connobj, w.events)] }

/-- The test of `EPOLLOUT` and `EPOLLHUP`. -/
def Waiting.testOut (w : Waiting σ) (i : Nat) : Waiting σ :=
  if hasAny (event w.mem i).events (epollOut ||| epollHup) then
    { w with events := w.events ||| eventWriteBits }.call cb (event w.mem i).ptr
  else w

/-- The test of `EPOLLERR`, which calls nothing. -/
def Waiting.testErr (w : Waiting σ) (i : Nat) : Waiting σ :=
  if hasAny (event w.mem i).events epollErr then { w with events := w.events ||| eventErrBits }
  else w

/-- The test of `EPOLLIN` and `EPOLLHUP`. -/
def Waiting.testIn (w : Waiting σ) (i : Nat) : Waiting σ :=
  if hasAny (event w.mem i).events (epollIn ||| epollHup) then
    { w with events := w.events ||| eventReadBits }.call cb (event w.mem i).ptr
  else w

/-- The loop body at `ev = &evb->event[i]`. -/
def Waiting.entry (w : Waiting σ) (i : Nat) : Waiting σ :=
  ((w.testOut cb event i).testErr event i).testIn cb event i

/-- `epollEvent_wait` after `epoll_wait` has stored `n` entries. -/
def epollEventWait (mem : σ) (n : Nat) : Waiting σ :=
  (List.range n).foldl (Waiting.entry cb event) ⟨mem, 0, []⟩

end

/-- The calls the machine's frames make from a frame on, when every callback returns and leaves the
array as it is; the first argument counts the tests left. -/
def Frame.calls (event : Nat → EpollEvent) : Nat → Frame → List (ConnPtr × BitVec 32)
  | 0, _ => []
  | tests + 1, fr =>
    let next : Pc → List (ConnPtr × BitVec 32)
      | .test fr => calls event tests fr
      | _ => []
    match fr.dispatch event with
    | .accept fr => (serverConn, fr.events) :: next fr.resume
    | .sockopt fr c => (c, fr.events) :: next fr.resume
    | pc => next pc

end EpollNet
