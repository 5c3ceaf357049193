import EpollNet.Net.Kernel

/-!
# Connection objects, strings and the two transfer loops

`cstr.c` as far as the server uses it, the fields of `struct tagConnObj` that code reads, and
`sendData` and `readData`. The two loops recurse on the list of answers the kernel gives to
their system calls. A loop that runs out of answers has not returned yet; its result then
carries the effects so far, so the prefixes of a list of answers are the moments of a call.
-/

namespace EpollNet

/-! ## Strings -/

/-- `struct tagCStr`; `buf` is the whole flexible array, terminator included. -/
structure CStr where
  /-- `len`. -/
  len : Nat
  /-- `freelen`. -/
  freelen : Nat
  /-- `buf`. -/
  buf : List UInt8
deriving DecidableEq

/-- An allocated string together with the address it was allocated at. -/
structure Buf where
  /-- Address, never reused by the model. -/
  addr : Nat
  /-- Contents, never written after creation. -/
  str : CStr
deriving DecidableEq

/-- The payload bytes of a string. -/
def Buf.bytes (b : Buf) : List UInt8 := b.str.buf.take b.str.len

/-- `malloc` and `free`: the next fresh address and the addresses freed, newest first. -/
structure Heap where
  /-- Next address. -/
  next : Nat
  /-- Every address passed to `free`. -/
  freed : List Nat

/-- Pass an address to `free`. -/
def Heap.free (h : Heap) (addr : Nat) : Heap := { h with freed := addr :: h.freed }

/-- Memory from a pointer on, by offset. -/
abbrev Memory := Nat → UInt8

/-- `memcpy` of `n` bytes out of memory. -/
def Memory.copy (m : Memory) (n : Nat) : List UInt8 := (List.range n).map m

/-- The kernel storing bytes at the start of a memory region. -/
def Memory.store (m : Memory) (bytes : List UInt8) : Memory := fun i => bytes.getD i (m i)

/-- `CStr_Create`: an empty source is allocated, not freed and answered with `NULL`. -/
def cStrCreate (h : Heap) (granted : Bool) (src : Option Memory) (datalen : Nat) :
    Option Buf × Heap :=
  match src with
  | none => (none, h)
  | some m =>
    if granted then
      if datalen > 0 then
        (some ⟨h.next, ⟨datalen, 0, m.copy datalen ++ [0]⟩⟩, { h with next := h.next + 1 })
      else (none, { h with next := h.next + 1 })
    else (none, h)

/-- `CStr_Malloc`; the `int` length converts to `size_t`. -/
def cStrMalloc (h : Heap) (granted : Bool) (src : Option Memory) (len : Int) :
    Option Buf × Heap := cStrCreate h granted src (len % 2 ^ 64).toNat

/-- `CStr_Free`. -/
def cStrFree (h : Heap) (b : Option Buf) : Heap :=
  match b with
  | some b => h.free b.addr
  | none => h

/-! ## Connection objects -/

/-- `enum ConnectState`. -/
inductive ConnectState where
  /-- `SOCKET_CONNECTING`. -/
  | connecting
  /-- `SOCKET_CONNECTED`. -/
  | connected
  /-- `SOCKET_CONNCLOSED`. -/
  | connclosed
deriving DecidableEq

/-- The fields of `struct tagConnObj` that the library reads back. Its function pointers
always hold the functions of `connobj.c`; the type, the address and the time of last use are
only ever stored or logged. -/
structure ConnObj where
  /-- Socket descriptor. -/
  fd : Fd
  /-- Connection state. -/
  activity : ConnectState
  /-- Data waiting to be sent. -/
  sendptr : Option Buf
  /-- Its length. -/
  sendlen : Nat
deriving DecidableEq

/-- `connobjReset` keeps the descriptor and the send pointer. -/
def connobjReset (c : ConnObj) : ConnObj := { c with activity := .connclosed, sendlen := 0 }

/-- `CreateNewConnObj` on a block whose contents are whatever the allocator left there. -/
def createNewConnObj (garbage : ConnObj) : ConnObj := { garbage with sendptr := none }

/-! ## Sending -/

/-- Outcome of a transfer loop: the returned value, unless it is still looping. -/
structure SendOutcome where
  /-- Value returned. -/
  ret : Option Int
  /-- Kernel after the calls made. -/
  kernel : Kernel

/-- The loop of `sendData` with `len` bytes still to go. A partial write leaves the loop and a
complete one goes round again with the same `len`. -/
def sendLoop (fd : Fd) (b : Buf) (sendlen : Nat) (len : Nat) :
    List (Except Errno Nat) → Kernel → SendOutcome
  | script, k =>
    if len > 0 then
      match script with
      | [] => ⟨none, k⟩
      | answer :: rest =>
        match k.write fd b.addr ((b.str.buf.drop (sendlen - len)).take len) answer with
        | (.error .eintr, k) => sendLoop fd b sendlen len rest k
        | (.error .eagain, k) => ⟨some (-2), k⟩
        | (.error .other, k) => ⟨some (-1), k⟩
        | (.ok nLen, k) =>
          if nLen < len then ⟨some 0, k⟩ else sendLoop fd b sendlen len rest k
    else ⟨some 0, k⟩

/-- An `unsigned int` put into an `int`. -/
def asInt (n : Nat) : Int := (n : Int).bmod (2 ^ 32)

/-- `sendData` on a connection whose send pointer is `b`. Its `len` is an `int`: the loop is not
entered for a `sendlen` that makes it negative. -/
def sendData (c : ConnObj) (b : Buf) (script : List (Except Errno Nat)) (k : Kernel) :
    SendOutcome := sendLoop c.fd b c.sendlen (asInt c.sendlen).toNat script k

/-- Lengths below `2 ^ 31` are kept. -/
theorem asInt_toNat {n : Nat} (small : n < 2 ^ 31) : (asInt n).toNat = n := by
  unfold asInt
  rw [Int.bmod_eq_of_le (by omega) (by omega), Int.toNat_natCast]

/-! ## Receiving -/

/-- One iteration of the receiving loop: what arrives before its `read`, and the answer. -/
structure ReadAnswer where
  /-- Arrivals, on any descriptor, since the previous system call. -/
  arrivals : List Kernel.Arrival
  /-- The kernel's answer. -/
  result : Except Errno Nat

/-- Outcome of `readData`: the returned value, unless it is still looping, and the buffer. -/
structure ReadOutcome where
  /-- Value returned. -/
  ret : Option Int
  /-- Contents of the caller's buffer. -/
  ptr : Memory
  /-- Kernel after the calls made. -/
  kernel : Kernel

/-- The loop of `readData` after `nLen` bytes. Every `read` is issued with the same pointer and
the full length; only `nLen = len` asks for another round. -/
def readLoop (fd : Fd) (len : Nat) : List ReadAnswer → Nat → Memory → Kernel → ReadOutcome
  | [], _, ptr, k => ⟨none, ptr, k⟩
  | answer :: rest, nLen, ptr, k =>
    match (k.arriveAll answer.arrivals).read fd len answer.result with
    | (.ok got, k) =>
      if got.length > 0 then
        if nLen + got.length = len then readLoop fd len rest (nLen + got.length) (ptr.store got) k
        else ⟨some (nLen + got.length : Nat), ptr.store got, k⟩
      else ⟨some 0, ptr, k⟩
    | (.error .eintr, k) => readLoop fd len rest nLen ptr k
    | (.error .eagain, k) => ⟨some (-2), ptr, k⟩
    | (.error .other, k) => readLoop fd len rest nLen ptr k

/-- `readData`. -/
def readData (c : ConnObj) (ptr : Memory) (len : Nat) (script : List ReadAnswer) (k : Kernel) :
    ReadOutcome := readLoop c.fd len script 0 ptr k

end EpollNet
