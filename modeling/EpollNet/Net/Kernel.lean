import Mathlib.Algebra.Order.Ring.Int

/-!
# The kernel the library calls

Open descriptors, the epoll interest list and the system calls the library makes on them. A
call whose outcome the kernel decides takes that outcome as an answer, so that quantifying
over answers quantifies over every behaviour of the kernel; an answer on a descriptor that is
not open is replaced by the documented `EBADF`. The call history and the accept counter are
bookkeeping of the model that no code reads.
-/

namespace EpollNet

/-- Descriptor numbers; `-1` is the library's mark for none. -/
abbrev Fd := Int

/-- Addresses of `ConnObj`s. -/
abbrev ConnPtr := Nat

/-! ## Event masks -/

/-- `EPOLLIN`. -/
def epollIn : BitVec 32 := 0x001#32
/-- `EPOLLOUT`. -/
def epollOut : BitVec 32 := 0x004#32
/-- `EPOLLERR`. -/
def epollErr : BitVec 32 := 0x008#32
/-- `EPOLLHUP`. -/
def epollHup : BitVec 32 := 0x010#32
/-- `EPOLLRDHUP`. -/
def epollRdhup : BitVec 32 := 0x2000#32
/-- `EPOLLET`. -/
def epollEt : BitVec 32 := 0x80000000#32

/-- C's `mask & bits` used as a condition. -/
def hasAny (mask bits : BitVec 32) : Bool := mask &&& bits != 0#32

/-- `struct epoll_event`: the mask and `data.ptr`. -/
structure EpollEvent where
  /-- Event mask. -/
  events : BitVec 32
  /-- `data.ptr`. -/
  ptr : ConnPtr
deriving DecidableEq

/-! ## Descriptors -/

/-- An open socket. -/
structure Socket where
  /-- Bytes that arrived and were not read yet. -/
  rx : List UInt8
  /-- The peer has shut down its side. -/
  fin : Bool
  /-- Which accept returned the descriptor, counted from one; zero for `socket()`. -/
  client : Nat
deriving DecidableEq

/-- One system call on a descriptor number, as issued. -/
inductive Call where
  /-- `socket` or `accept` returned the number. -/
  | opened (fd : Fd)
  /-- `read`, with the bytes it returned. -/
  | read (fd : Fd) (got : List UInt8)
  /-- `write` from a buffer, with the bytes the socket accepted. -/
  | write (fd : Fd) (buf : Nat) (took : List UInt8)
  /-- `getsockopt(SO_ERROR)`. -/
  | getsockopt (fd : Fd)
  /-- `epoll_ctl`. -/
  | epollCtl (fd : Fd)
  /-- `close`. -/
  | close (fd : Fd)
deriving DecidableEq

/-- The values of `errno` the library tells apart. -/
inductive Errno where
  /-- `EINTR`. -/
  | eintr
  /-- `EAGAIN`, which is `EWOULDBLOCK`. -/
  | eagain
  /-- Any other error. -/
  | other
deriving DecidableEq

/-- Kernel state as far as the library can observe it. -/
structure Kernel where
  /-- Open descriptors. -/
  sock : Fd → Option Socket
  /-- The epoll interest list. -/
  reg : Fd → Option EpollEvent
  /-- A report of readable input is due for the descriptor. -/
  due : Fd → Bool
  /-- Number of connections accepted so far. -/
  accepted : Nat
  /-- System calls issued so far, newest first. -/
  trace : List Call

namespace Kernel

/-- No descriptor is open and nothing is registered. -/
def initial : Kernel := ⟨fun _ => none, fun _ => none, fun _ => false, 0, []⟩

/-- Append a call to the history. -/
def log (k : Kernel) (call : Call) : Kernel := { k with trace := call :: k.trace }

/-- The descriptor is registered with `EPOLLIN`. -/
def armed (k : Kernel) (fd : Fd) : Bool :=
  match k.reg fd with
  | some ev => hasAny ev.events epollIn
  | none => false

/-- The descriptor is readable: bytes or an end of stream wait in its queue. -/
def hasInput (k : Kernel) (fd : Fd) : Bool :=
  match k.sock fd with
  | some s => !s.rx.isEmpty || s.fin
  | none => false

/-- Bytes, and possibly the peer's FIN behind them, arriving for a descriptor. -/
structure Arrival where
  /-- Receiving descriptor. -/
  fd : Fd
  /-- Bytes appended to its queue. -/
  bytes : List UInt8
  /-- The peer shuts down after them. -/
  fin : Bool

/-- An arrival queues its bytes and makes a report due if the descriptor is registered for
input. Nothing arrives behind a FIN. -/
def arrive (k : Kernel) (a : Arrival) : Kernel :=
  match k.sock a.fd with
  | none => k
  | some s =>
    if s.fin then k else
      { k with
        sock := Function.update k.sock a.fd (some { s with rx := s.rx ++ a.bytes, fin := a.fin })
        due := Function.update k.due a.fd
          (k.due a.fd || (k.armed a.fd && (!a.bytes.isEmpty || a.fin))) }

/-- Several arrivals in order. -/
def arriveAll (k : Kernel) (arrivals : List Arrival) : Kernel := arrivals.foldl arrive k

/-! ## System calls -/

/-- A number `accept` or `socket` may return: an `int` that is not open. -/
def Free (k : Kernel) (fd : Fd) : Prop := 0 ≤ fd ∧ fd < 2 ^ 31 ∧ k.sock fd = none

instance (k : Kernel) (fd : Fd) : Decidable (k.Free fd) := by
  unfold Free; infer_instance

/-- The descriptor, queue and FIN of a connection handed out by `accept`. -/
structure Incoming where
  /-- Number of the new descriptor. -/
  fd : Fd
  /-- Bytes already received. -/
  bytes : List UInt8
  /-- The peer has already shut down. -/
  fin : Bool

/-- `socket(2)`: the kernel offers a number or refuses. -/
def socket (k : Kernel) (offer : Option Fd) : Option Fd × Kernel :=
  match offer with
  | none => (none, k)
  | some fd =>
    if k.Free fd then
      (some fd, { k.log (.opened fd) with sock := Function.update k.sock fd (some ⟨[], false, 0⟩) })
    else (none, k)

/-- `accept(2)` on a listening descriptor. -/
def accept (k : Kernel) (listening : Fd) (answer : Except Errno Incoming) :
    Except Errno Fd × Kernel :=
  match answer with
  | .error e => (.error e, k)
  | .ok inc =>
    if k.Free inc.fd ∧ (k.sock listening).isSome then
      (.ok inc.fd, { k.log (.opened inc.fd) with
        sock := Function.update k.sock inc.fd (some ⟨inc.bytes, inc.fin, k.accepted + 1⟩)
        accepted := k.accepted + 1 })
    else (.error .other, k)

/-- `read(2)` of at most `len` bytes; the answer is the count the kernel is willing to return,
capped by the request and by what is queued. No bytes is end of stream. -/
def read (k : Kernel) (fd : Fd) (len : Nat) (answer : Except Errno Nat) :
    Except Errno (List UInt8) × Kernel :=
  match k.sock fd, answer with
  | some s, .ok n =>
    (.ok (s.rx.take (min n len)),
      { k.log (.read fd (s.rx.take (min n len))) with
        sock := Function.update k.sock fd (some { s with rx := s.rx.drop (min n len) }) })
  | some _, .error e => (.error e, k.log (.read fd []))
  | none, _ => (.error .other, k.log (.read fd []))

/-- `write(2)` of the given bytes of a buffer; the answer is the count accepted. -/
def write (k : Kernel) (fd : Fd) (buf : Nat) (bytes : List UInt8) (answer : Except Errno Nat) :
    Except Errno Nat × Kernel :=
  match k.sock fd, answer with
  | some _, .ok n => (.ok (min n bytes.length), k.log (.write fd buf (bytes.take n)))
  | some _, .error e => (.error e, k.log (.write fd buf []))
  | none, _ => (.error .other, k.log (.write fd buf []))

/-- `getsockopt(SO_ERROR)`: the pending error, or `none` when the call itself fails. -/
def getsockopt (k : Kernel) (fd : Fd) (answer : Option Int) : Option Int × Kernel :=
  match k.sock fd with
  | some _ => (answer, k.log (.getsockopt fd))
  | none => (none, k.log (.getsockopt fd))

/-- Store an interest; a report becomes due at once if the descriptor is ready for it. -/
def register (k : Kernel) (fd : Fd) (ev : EpollEvent) : Kernel :=
  { k with
    reg := Function.update k.reg fd (some ev)
    due := Function.update k.due fd (hasAny ev.events epollIn && k.hasInput fd) }

/-- `epoll_ctl(EPOLL_CTL_ADD)`; the kernel may refuse for want of memory or watches. -/
def ctlAdd (k : Kernel) (fd : Fd) (ev : EpollEvent) (granted : Bool) : Int × Kernel :=
  if (k.sock fd).isSome && (k.reg fd).isNone && granted then
    (0, (k.log (.epollCtl fd)).register fd ev)
  else (-1, k.log (.epollCtl fd))

/-- `epoll_ctl(EPOLL_CTL_MOD)`. -/
def ctlMod (k : Kernel) (fd : Fd) (ev : EpollEvent) : Int × Kernel :=
  if (k.sock fd).isSome && (k.reg fd).isSome then
    (0, (k.log (.epollCtl fd)).register fd ev)
  else (-1, k.log (.epollCtl fd))

/-- `epoll_ctl(EPOLL_CTL_DEL)`. -/
def ctlDel (k : Kernel) (fd : Fd) : Int × Kernel :=
  if (k.sock fd).isSome && (k.reg fd).isSome then
    (0, { k.log (.epollCtl fd) with
      reg := Function.update k.reg fd none
      due := Function.update k.due fd false })
  else (-1, k.log (.epollCtl fd))

/-- `close(2)`: the number is free again and its interest is gone. -/
def close (k : Kernel) (fd : Fd) : Kernel :=
  { k.log (.close fd) with
    sock := Function.update k.sock fd none
    reg := Function.update k.reg fd none
    due := Function.update k.due fd false }

/-- A batch `epoll_wait` may return: registered descriptors with any masks, each at most once.
Its length is not bounded by the library's 1024. -/
def Reports (k : Kernel) (batch : List (Fd × BitVec 32)) : Prop :=
  (batch.map Prod.fst).Nodup ∧ ∀ entry ∈ batch, (k.reg entry.1).isSome

instance (k : Kernel) (batch : List (Fd × BitVec 32)) : Decidable (k.Reports batch) := by
  unfold Reports; infer_instance

/-- Reporting a descriptor consumes the report that was due for it. -/
def reported (k : Kernel) (batch : List (Fd × BitVec 32)) : Kernel :=
  { k with due := fun fd => k.due fd && !batch.any fun entry => entry.1 == fd }

end Kernel

end EpollNet
