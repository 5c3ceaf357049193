import EpollNet.Basis.Roster
import EpollNet.Net.Machine

/-!
# What each handler can do

One lemma for each function of the model says everything a call can do to the server, so that
no invariant proof opens a handler again. `Server.roster` reads the connection objects and
their descriptors as pooled objects lent to handles; every handler leaves the roster alone or
performs one of its operations.
-/

namespace EpollNet

open EpollNet.Basis

/-! ## The kernel's tables -/

namespace Kernel

/-- The same descriptors are open, for the same clients, and registered for the same objects. -/
structure SameTable (k k' : Kernel) : Prop where
  /-- Open descriptors and their clients agree. -/
  client : ∀ fd, (k'.sock fd).map Socket.client = (k.sock fd).map Socket.client
  /-- Registered objects agree. -/
  owner : ∀ fd, (k'.reg fd).map EpollEvent.ptr = (k.reg fd).map EpollEvent.ptr

/-- A table is the same as itself. -/
theorem SameTable.refl (k : Kernel) : k.SameTable k := ⟨fun _ => rfl, fun _ => rfl⟩

/-- Two steps that change no table. -/
theorem SameTable.trans {k k' k'' : Kernel} (first : k.SameTable k') (second : k'.SameTable k'') :
    k.SameTable k'' :=
  ⟨fun fd => (second.client fd).trans (first.client fd),
    fun fd => (second.owner fd).trans (first.owner fd)⟩

/-- Open descriptors agree. -/
theorem SameTable.isOpen {k k' : Kernel} (same : k.SameTable k') (fd : Fd) :
    (k'.sock fd).isSome = (k.sock fd).isSome := by
  simpa using congrArg Option.isSome (same.client fd)

/-- Replacing the contents of an open socket changes no client. -/
theorem client_update_sock {k : Kernel} {fd : Fd} {old new : Socket} (isOpen : k.sock fd = some old)
    (client : new.client = old.client) (x : Fd) :
    (Function.update k.sock fd (some new) x).map Socket.client =
      (k.sock x).map Socket.client := by
  by_cases same : x = fd
  · subst same
    simp [isOpen, client]
  · rw [Function.update_of_ne same]

/-- Logging a call opens and closes nothing. -/
@[simp] theorem log_sock (k : Kernel) (call : Call) : (k.log call).sock = k.sock := rfl

/-- Logging a call registers nothing. -/
@[simp] theorem log_reg (k : Kernel) (call : Call) : (k.log call).reg = k.reg := rfl

/-- Logging a call makes no report due. -/
@[simp] theorem log_due (k : Kernel) (call : Call) : (k.log call).due = k.due := rfl

/-- Logging a call accepts nothing. -/
@[simp] theorem log_accepted (k : Kernel) (call : Call) : (k.log call).accepted = k.accepted := rfl

/-- The call logged is in front of the history. -/
@[simp] theorem log_trace (k : Kernel) (call : Call) : (k.log call).trace = call :: k.trace := rfl

/-- What arrives registers nothing. -/
@[simp] theorem arrive_reg (k : Kernel) (a : Arrival) : (k.arrive a).reg = k.reg := by
  unfold arrive
  split
  · rfl
  · split <;> rfl

/-- What arrives is no system call. -/
@[simp] theorem arrive_trace (k : Kernel) (a : Arrival) : (k.arrive a).trace = k.trace := by
  unfold arrive
  split
  · rfl
  · split <;> rfl

/-- An arrival changes no table. -/
theorem sameTable_arrive (k : Kernel) (a : Arrival) : k.SameTable (k.arrive a) := by
  refine ⟨fun fd => ?_, fun fd => by rw [arrive_reg]⟩
  unfold arrive
  split
  · rfl
  · rename_i s isOpen
    split
    · rfl
    · exact client_update_sock isOpen (by rfl) fd

/-- `read` registers nothing. -/
@[simp] theorem read_reg (k : Kernel) (fd : Fd) (len : Nat) (answer : Except Errno Nat) :
    (k.read fd len answer).2.reg = k.reg := by
  unfold read
  split <;> rfl

/-- `read` makes no report due. -/
@[simp] theorem read_due (k : Kernel) (fd : Fd) (len : Nat) (answer : Except Errno Nat) :
    (k.read fd len answer).2.due = k.due := by
  unfold read
  split <;> rfl

/-- A read changes no table. -/
theorem sameTable_read (k : Kernel) (fd : Fd) (len : Nat) (answer : Except Errno Nat) :
    k.SameTable (k.read fd len answer).2 := by
  refine ⟨fun x => ?_, fun x => by rw [read_reg]⟩
  unfold read
  split
  · exact client_update_sock ‹_› (by rfl) x
  · rfl
  · rfl

/-- `write` opens and closes nothing. -/
@[simp] theorem write_sock (k : Kernel) (fd : Fd) (buf : Nat) (bytes : List UInt8)
    (answer : Except Errno Nat) : (k.write fd buf bytes answer).2.sock = k.sock := by
  unfold write
  split <;> rfl

/-- `write` registers nothing. -/
@[simp] theorem write_reg (k : Kernel) (fd : Fd) (buf : Nat) (bytes : List UInt8)
    (answer : Except Errno Nat) : (k.write fd buf bytes answer).2.reg = k.reg := by
  unfold write
  split <;> rfl

/-- `write` makes no report due. -/
@[simp] theorem write_due (k : Kernel) (fd : Fd) (buf : Nat) (bytes : List UInt8)
    (answer : Except Errno Nat) : (k.write fd buf bytes answer).2.due = k.due := by
  unfold write
  split <;> rfl

/-- `getsockopt` changes nothing but the history. -/
@[simp] theorem getsockopt_log (k : Kernel) (fd : Fd) (answer : Option Int) :
    (k.getsockopt fd answer).2 = k.log (.getsockopt fd) := by
  unfold getsockopt
  split <;> rfl

/-- `getsockopt` returns a value only for an open descriptor. -/
theorem getsockopt_some {k : Kernel} {fd : Fd} {answer : Option Int} {val : Int}
    (returned : (k.getsockopt fd answer).1 = some val) :
    (k.sock fd).isSome = true ∧ answer = some val := by
  unfold getsockopt at returned
  split at returned
  · rename_i isOpen
    exact ⟨by rw [isOpen]; rfl, returned⟩
  · contradiction

/-- `epoll_ctl` opens and closes nothing. -/
@[simp] theorem ctlMod_sock (k : Kernel) (fd : Fd) (ev : EpollEvent) :
    (k.ctlMod fd ev).2.sock = k.sock := by
  unfold ctlMod
  split <;> rfl

/-- Changing an interest stores it for a descriptor that is open and registered, or fails. -/
theorem ctlMod_cases (k : Kernel) (fd : Fd) (ev : EpollEvent) :
    ((k.sock fd).isSome = true ∧ (k.reg fd).isSome = true ∧
      k.ctlMod fd ev = (0, (k.log (.epollCtl fd)).register fd ev)) ∨
    k.ctlMod fd ev = (-1, k.log (.epollCtl fd)) := by
  unfold ctlMod
  split
  · rename_i both
    rw [Bool.and_eq_true] at both
    exact .inl ⟨both.1, both.2, rfl⟩
  · exact .inr rfl

/-- Registering an object that already owns the descriptor changes no table. -/
theorem sameTable_ctlMod {k : Kernel} {fd : Fd} {ev : EpollEvent}
    (owned : (k.sock fd).isSome = true → (k.reg fd).isSome = true →
      (k.reg fd).map EpollEvent.ptr = some ev.ptr) :
    k.SameTable (k.ctlMod fd ev).2 := by
  unfold ctlMod
  split
  · rename_i both
    rw [Bool.and_eq_true] at both
    refine ⟨fun x => rfl, fun x => ?_⟩
    by_cases same : x = fd
    · subst same
      simp [register, owned both.1 both.2]
    · simp [register, Function.update_of_ne same]
  · exact ⟨fun x => rfl, fun x => rfl⟩

end Kernel

/-! ## The transfer loops -/

/-- One round of `sendLoop` with bytes to go. -/
theorem sendLoop_cons {fd : Fd} {b : Buf} {sendlen len : Nat} (positive : len > 0)
    (answer : Except Errno Nat) (rest : List (Except Errno Nat)) (k : Kernel) :
    sendLoop fd b sendlen len (answer :: rest) k =
      match k.write fd b.addr ((b.str.buf.drop (sendlen - len)).take len) answer with
      | (.error .eintr, k) => sendLoop fd b sendlen len rest k
      | (.error .eagain, k) => ⟨some (-2), k⟩
      | (.error .other, k) => ⟨some (-1), k⟩
      | (.ok nLen, k) =>
        if nLen < len then ⟨some 0, k⟩ else sendLoop fd b sendlen len rest k := by
  rw [sendLoop.eq_def]
  exact if_pos positive

/-- What each write of `sendLoop` keeps, the loop keeps. -/
theorem sendLoop_kernel {fd : Fd} {b : Buf} {sendlen len : Nat} {P : Kernel → Prop}
    (kept : ∀ k bytes answer, P k → P (k.write fd b.addr bytes answer).2)
    (script : List (Except Errno Nat)) (k : Kernel) (before : P k) :
    P (sendLoop fd b sendlen len script k).kernel := by
  by_cases positive : len > 0
  · induction script generalizing k with
    | nil =>
      rw [sendLoop.eq_def]
      simpa only [positive, if_true] using before
    | cons answer rest ih =>
      rw [sendLoop_cons positive]
      have after := kept k ((b.str.buf.drop (sendlen - len)).take len) answer before
      split
      · rename_i k' written
        exact ih k' (by rwa [written] at after)
      · rename_i k' written
        rwa [written] at after
      · rename_i k' written
        rwa [written] at after
      · rename_i nLen k' written
        rw [written] at after
        split
        · exact after
        · exact ih k' after
  · rw [sendLoop.eq_def]
    simpa only [positive, if_false] using before

/-- What each arrival and each read of `readLoop` keep, the loop keeps. -/
theorem readLoop_kernel {fd : Fd} {len : Nat} {P : Kernel → Prop}
    (arrived : ∀ k a, P k → P (k.arrive a))
    (kept : ∀ k answer, P k → P (k.read fd len answer).2)
    (script : List ReadAnswer) (nLen : Nat) (ptr : Memory) (k : Kernel) (before : P k) :
    P (readLoop fd len script nLen ptr k).kernel := by
  have all : ∀ (arrivals : List Kernel.Arrival) (k : Kernel), P k → P (k.arriveAll arrivals) := by
    intro arrivals
    induction arrivals with
    | nil => exact fun k before => before
    | cons a rest ih => exact fun k before => ih _ (arrived k a before)
  induction script generalizing nLen ptr k with
  | nil => exact before
  | cons answer rest ih =>
    unfold readLoop
    have after := kept _ answer.result (all answer.arrivals k before)
    split
    · rename_i got k' returned
      rw [returned] at after
      split
      · split
        · exact ih _ _ k' after
        · exact after
      · exact after
    · rename_i k' returned
      exact ih _ _ k' (by rwa [returned] at after)
    · rename_i k' returned
      rwa [returned] at after
    · rename_i k' returned
      exact ih _ _ k' (by rwa [returned] at after)

/-- `sendData` changes no table. -/
theorem sameTable_sendData (c : ConnObj) (b : Buf) (script : List (Except Errno Nat)) (k : Kernel) :
    k.SameTable (sendData c b script k).kernel :=
  sendLoop_kernel (P := fun k' => k.SameTable k')
    (fun k' bytes answer same => same.trans ⟨fun fd => by simp, fun fd => by simp⟩) script k
    (.refl k)

/-- `readData` changes no table. -/
theorem sameTable_readData (c : ConnObj) (ptr : Memory) (len : Nat) (script : List ReadAnswer)
    (k : Kernel) : k.SameTable (readData c ptr len script k).kernel :=
  readLoop_kernel (P := fun k' => k.SameTable k')
    (fun k' a same => same.trans (k'.sameTable_arrive a))
    (fun k' answer same => same.trans (k'.sameTable_read _ _ answer)) script 0 ptr k (.refl k)

/-- On a descriptor that is not open `readData` never returns. -/
theorem readLoop_closed {fd : Fd} {len : Nat} (script : List ReadAnswer) (nLen : Nat)
    (ptr : Memory) (k : Kernel) (closed : k.sock fd = none) :
    (readLoop fd len script nLen ptr k).ret = none := by
  induction script generalizing nLen ptr k with
  | nil => rfl
  | cons answer rest ih =>
    have still : (k.arriveAll answer.arrivals).sock fd = none := by
      have all : ∀ (arrivals : List Kernel.Arrival) (k : Kernel), k.sock fd = none →
          (k.arriveAll arrivals).sock fd = none := by
        intro arrivals
        induction arrivals with
        | nil => exact fun k closed => closed
        | cons a rest ih =>
          intro k closed
          apply ih
          have table := (k.sameTable_arrive a).isOpen fd
          rw [closed] at table
          exact Option.not_isSome_iff_eq_none.mp (by simp [table])
      exact all _ k closed
    have failed : (k.arriveAll answer.arrivals).read fd len answer.result =
        (.error .other, (k.arriveAll answer.arrivals).log (.read fd [])) := by
      simp [Kernel.read, still]
    simp only [readLoop, failed]
    exact ih _ _ _ still

/-! ## Allocations -/

/-- Between two states of the allocator nothing was freed, and a buffer that was made has an
address allocated in between. -/
structure Heap.Grown (h h' : Heap) (made : Option Buf) : Prop where
  /-- Nothing was freed. -/
  freed : h'.freed = h.freed
  /-- Addresses only grow. -/
  le : h.next ≤ h'.next
  /-- The buffer's address is new. -/
  fresh : ∀ b, made = some b → h.next ≤ b.addr ∧ b.addr < h'.next

/-- No allocation. -/
theorem Heap.Grown.same (h : Heap) : h.Grown h none := ⟨rfl, le_refl _, fun _ made => nomatch made⟩

/-- A buffer that was made may be lost. -/
theorem Heap.Grown.forget {h h' : Heap} {made : Option Buf} (grown : h.Grown h' made) :
    h.Grown h' none := ⟨grown.freed, grown.le, fun _ made => nomatch made⟩

namespace Server

/-! ## The roster of connection objects -/

/-- Connection objects as pooled objects lent to descriptors. -/
def roster (s : Server) : Roster Fd where
  opened fd := (s.kernel.sock fd).isSome = true
  owner fd := (s.kernel.reg fd).map EpollEvent.ptr
  handle c := (s.conns c).fd
  pool := s.pool
  size := s.nconn

/-- A descriptor is open in the roster if it has a socket. -/
@[simp] theorem roster_opened (s : Server) (fd : Fd) :
    s.roster.opened fd ↔ (s.kernel.sock fd).isSome = true := Iff.rfl

/-- A descriptor's owner is the object registered for it. -/
@[simp] theorem roster_owner (s : Server) (fd : Fd) :
    s.roster.owner fd = (s.kernel.reg fd).map EpollEvent.ptr := rfl

/-- An object's handle is its descriptor. -/
@[simp] theorem roster_handle (s : Server) (c : ConnPtr) : s.roster.handle c = (s.conns c).fd := rfl

/-- The roster's pool is the server's. -/
@[simp] theorem roster_pool (s : Server) : s.roster.pool = s.pool := rfl

/-- The roster has as many objects as the server. -/
@[simp] theorem roster_size (s : Server) : s.roster.size = s.nconn := rfl

/-- Equal tables, descriptors, pool and count make equal rosters. -/
theorem roster_congr {s s' : Server} (table : s.kernel.SameTable s'.kernel)
    (fds : ∀ c, (s'.conns c).fd = (s.conns c).fd) (pool : s'.pool = s.pool)
    (nconn : s'.nconn = s.nconn) : s'.roster = s.roster := by
  unfold roster
  congr 1
  · funext fd
    rw [table.isOpen]
  · funext fd
    rw [table.owner]
  · funext c
    rw [fds]

/-- Replacing an object by one with the same descriptor changes no descriptor. -/
theorem fd_update {conns : ConnPtr → ConnObj} {c : ConnPtr} {obj : ConnObj}
    (same : obj.fd = (conns c).fd) (x : ConnPtr) :
    (Function.update conns c obj x).fd = (conns x).fd := by
  by_cases equal : x = c
  · subst equal
    simpa using same
  · rw [Function.update_of_ne equal]

/-! ## Registration changes -/

/-- A live object may change its interest, and one whose descriptor is closed may try: the
roster stays, and only the first entry of the event array is written. -/
theorem roster_modify {s : Server} {c : ConnPtr} (settled : s.roster.Settled c)
    (flags : BitVec 32) : (s.epollEventModifyConn c flags).2.roster = s.roster := by
  apply roster_congr
  · apply Kernel.sameTable_ctlMod
    intro isOpen _
    exact settled.live isOpen
  · exact fun _ => rfl
  · rfl
  · rfl

/-- The end of a connection: `event_read` on end of stream. -/
def hangUp (s : Server) (c : ConnPtr) : Server :=
  ((s.epollEventDelConn c).2.closeConnObj c).setConn c

/-- Descriptors after the interest was deleted and the descriptor closed. -/
theorem hangUp_eq {s : Server} {c : ConnPtr} (positive : 0 < (s.conns c).fd) :
    s.hangUp c = { s with
      kernel := (s.kernel.ctlDel (s.conns c).fd).2.close (s.conns c).fd
      conns := Function.update s.conns c
        { s.conns c with activity := .connclosed, fd := -1, sendlen := 0 }
      pool := s.pool ++ [c] } := by
  simp [hangUp, epollEventDelConn, closeConnObj, setConn, positive, connobjReset, dataQueuePush]

/-- Deleting the interest touches no socket. -/
@[simp] theorem ctlDel_sock (k : Kernel) (fd : Fd) : (k.ctlDel fd).2.sock = k.sock := by
  unfold Kernel.ctlDel
  split <;> rfl

/-- Deleting the interest and closing leaves the other interests. -/
theorem ctlDel_reg_of_ne (k : Kernel) {fd x : Fd} (distinct : x ≠ fd) :
    (k.ctlDel fd).2.reg x = k.reg x := by
  unfold Kernel.ctlDel
  split
  · exact Function.update_of_ne distinct _ _
  · rfl

/-- The end of a connection retires its object. -/
theorem roster_hangUp {s : Server} {c : ConnPtr} (positive : 0 < (s.conns c).fd) :
    (s.hangUp c).roster = s.roster.retire c (-1) := by
  rw [hangUp_eq positive]
  unfold roster Roster.retire
  congr 1
  · funext x
    by_cases same : x = (s.conns c).fd
    · simp [same, Kernel.close]
    · simp [Kernel.close, same]
  · funext x
    by_cases same : x = (s.conns c).fd
    · simp [same, Kernel.close]
    · simp [Kernel.close, Function.update_of_ne same, ctlDel_reg_of_ne _ same]
  · funext x
    by_cases same : x = c
    · subst same
      simp
    · simp [Function.update_of_ne same]

/-! ## Handlers -/

/-- The kernel after the receiving loop of `event_read`. -/
def readKernel (s : Server) (c : ConnPtr) (input : ReadInput) : Kernel :=
  (readData (s.conns c) (recvbuffer input.beyond) recvbufferSize input.script s.kernel).kernel

/-- The server after the receiving loop of `event_read`. -/
def received (s : Server) (c : ConnPtr) (input : ReadInput) : Server :=
  { s with kernel := s.readKernel c input }

/-- The value returned by the receiving loop of `event_read`, unless it still loops. -/
def recvlen (s : Server) (c : ConnPtr) (input : ReadInput) : Option Int :=
  (readData (s.conns c) (recvbuffer input.beyond) recvbufferSize input.script s.kernel).ret

/-- `CStr_Malloc` frees nothing and reuses no address. -/
theorem cStrMalloc_grown (h : Heap) (granted : Bool) (src : Option Memory) (len : Int) :
    h.Grown (cStrMalloc h granted src len).2 (cStrMalloc h granted src len).1 := by
  unfold cStrMalloc cStrCreate
  split
  · exact .same h
  · split
    · split
      · refine ⟨rfl, Nat.le_succ _, fun b made => ?_⟩
        obtain rfl := Option.some.inj made
        exact ⟨le_refl _, Nat.lt_succ_self _⟩
      · exact ⟨rfl, Nat.le_succ _, fun _ made => nomatch made⟩
    · exact .same h

/-- `event_read` up to its push: it met the end of the stream and returned the object; it still
loops; it queues nothing; or it built an item, which names the connection it was read for and
the accept whose socket it was read from. -/
theorem eventReadRecv_cases (s : Server) (c : ConnPtr) (input : ReadInput) :
    (s.recvlen c input = some 0 ∧
      s.eventReadRecv c input =
        (.finished, (s.received c input).hangUp c)) ∨
    (s.recvlen c input = none ∧
      s.eventReadRecv c input = (.looping, s.received c input)) ∨
    (∃ recvlen heap, s.recvlen c input = some recvlen ∧ recvlen ≠ 0 ∧
      s.heap.Grown heap none ∧
      s.eventReadRecv c input = (.finished, { s.received c input with heap })) ∨
    ∃ recvlen item made, s.recvlen c input = some recvlen ∧ 0 < recvlen ∧ item.connobj = c ∧
      item.client = ((s.kernel.sock (s.conns c).fd).map Socket.client).getD 0 ∧
      s.heap.Grown made item.recvptr ∧ item.addr = made.next ∧
      s.eventReadRecv c input =
        (.item item, { s.received c input with heap := { made with next := made.next + 1 } }) := by
  unfold eventReadRecv received readKernel recvlen
  dsimp only
  cases returned : (readData (s.conns c) (recvbuffer input.beyond) recvbufferSize input.script
    s.kernel).ret with
  | none => exact .inr (.inl ⟨rfl, rfl⟩)
  | some recvlen =>
    by_cases zero : recvlen = 0
    · subst zero
      exact .inl ⟨rfl, rfl⟩
    · by_cases positive : recvlen > 0
      · have grown := cStrMalloc_grown s.heap input.strGranted
          (some (readData (s.conns c) (recvbuffer input.beyond) recvbufferSize input.script
            s.kernel).ptr) recvlen
        simp only [zero, positive, if_true, if_false]
        generalize cStrMalloc s.heap _ _ recvlen = made at grown ⊢
        by_cases granted : input.itemGranted = true
        · exact .inr (.inr (.inr ⟨recvlen, _, made.2, rfl, positive, rfl, rfl, grown, rfl,
            if_pos granted⟩))
        · exact .inr (.inr (.inl ⟨recvlen, _, rfl, zero, grown.forget, if_neg granted⟩))
      · exact .inr (.inr (.inl ⟨recvlen, s.heap, rfl, zero, .same _,
          by simp only [zero, positive, if_false]⟩))

/-- The server after the sending loop of `event_write`. -/
def sending (s : Server) (c : ConnPtr) (b : Buf) (script : List (Except Errno Nat)) : Server :=
  { s with kernel := (sendData (s.conns c) b script s.kernel).kernel }

/-- An attempt that keeps its buffer replaces the object by itself. -/
theorem sending_eq (s : Server) (c : ConnPtr) (b : Buf) (script : List (Except Errno Nat)) :
    s.sending c b script = { s with
      kernel := (sendData (s.conns c) b script s.kernel).kernel
      heap := s.heap
      conns := Function.update s.conns c (s.conns c) } := by
  rw [Function.update_eq_self]
  rfl

/-- The server after `event_write` freed a buffer. -/
def unloaded (s : Server) (c : ConnPtr) (b : Buf) (script : List (Except Errno Nat)) : Server :=
  { s.sending c b script with
    heap := s.heap.free b.addr
    conns := Function.update s.conns c { s.conns c with sendptr := none, sendlen := 0 } }

/-- `event_write` up to its registration: nothing to send; still sending; blocked or failed, with
the buffer kept; or done with the buffer. -/
theorem eventWriteSend_cases (s : Server) (c : ConnPtr) (script : List (Except Errno Nat)) :
    (((s.conns c).sendptr = none ∨ (s.conns c).sendlen = 0) ∧
      s.eventWriteSend c script = (some none, s)) ∨
    ∃ b, (s.conns c).sendptr = some b ∧ 0 < (s.conns c).sendlen ∧
      (((sendData (s.conns c) b script s.kernel).ret = none ∧
          s.eventWriteSend c script = (none, s.sending c b script)) ∨
        ((sendData (s.conns c) b script s.kernel).ret = some (-2) ∧
          s.eventWriteSend c script = (some (some eventWriteBits), s.sending c b script)) ∨
        ((sendData (s.conns c) b script s.kernel).ret = some (-1) ∧
          s.eventWriteSend c script = (some (some eventReadBits), s.sending c b script)) ∨
        ∃ ret, (sendData (s.conns c) b script s.kernel).ret = some ret ∧ ret ≠ -2 ∧ ret ≠ -1 ∧
          s.eventWriteSend c script = (some (some eventReadBits), s.unloaded c b script)) := by
  unfold eventWriteSend
  cases pending : (s.conns c).sendptr with
  | none => exact .inl ⟨.inl rfl, rfl⟩
  | some b =>
    by_cases positive : (s.conns c).sendlen > 0
    · refine .inr ⟨b, rfl, positive, ?_⟩
      simp only [positive, if_true]
      cases returned : (sendData (s.conns c) b script s.kernel).ret with
      | none => exact .inl ⟨rfl, rfl⟩
      | some datalen =>
        refine .inr ?_
        by_cases blocked : datalen = -2
        · subst blocked
          exact .inl ⟨rfl, rfl⟩
        · by_cases failed : datalen = -1
          · subst failed
            exact .inr (.inl ⟨rfl, rfl⟩)
          · refine .inr (.inr ⟨datalen, rfl, blocked, failed, ?_⟩)
            simp only [blocked, failed, if_false]
            rfl
    · exact .inl ⟨.inr (by omega), by simp [positive]⟩

/-- `event_write`: the same, and the interest changes unless there was nothing to do. -/
theorem eventWrite_cases (s : Server) (c : ConnPtr) (script : List (Except Errno Nat)) :
    (((s.conns c).sendptr = none ∨ (s.conns c).sendlen = 0) ∧
      s.eventWrite c script = (true, s)) ∨
    ∃ b, (s.conns c).sendptr = some b ∧ 0 < (s.conns c).sendlen ∧
      (((sendData (s.conns c) b script s.kernel).ret = none ∧
          s.eventWrite c script = (false, s.sending c b script)) ∨
        ((sendData (s.conns c) b script s.kernel).ret = some (-2) ∧ s.eventWrite c script =
          (true, ((s.sending c b script).epollEventModifyConn c eventWriteBits).2)) ∨
        ((sendData (s.conns c) b script s.kernel).ret = some (-1) ∧ s.eventWrite c script =
          (true, ((s.sending c b script).epollEventModifyConn c eventReadBits).2)) ∨
        ∃ ret, (sendData (s.conns c) b script s.kernel).ret = some ret ∧ ret ≠ -2 ∧ ret ≠ -1 ∧
          s.eventWrite c script =
            (true, ((s.unloaded c b script).epollEventModifyConn c eventReadBits).2)) := by
  unfold eventWrite
  rcases s.eventWriteSend_cases c script with ⟨nothing, sent⟩ | ⟨b, pending, positive, outcome⟩
  · exact .inl ⟨nothing, by rw [sent]⟩
  · refine .inr ⟨b, pending, positive, ?_⟩
    rcases outcome with ⟨returned, sent⟩ | ⟨returned, sent⟩ | ⟨returned, sent⟩ |
      ⟨ret, returned, blocked, failed, sent⟩
    · exact .inl ⟨returned, by rw [sent]⟩
    · exact .inr (.inl ⟨returned, by rw [sent]⟩)
    · exact .inr (.inr (.inl ⟨returned, by rw [sent]⟩))
    · exact .inr (.inr (.inr ⟨ret, returned, blocked, failed, by rw [sent]⟩))

/-- `ServerSend` up to its registration does nothing, or replaces the send fields of a connected
object. -/
theorem serverSendStore_cases (s : Server) (c : ConnPtr) (data : Option Memory) (len : Int)
    (granted : Bool) :
    s.serverSendStore c data len granted = (false, s) ∨
    (0 < len ∧ (s.conns c).activity = .connected ∧
      ∃ heap obj sent, obj.fd = (s.conns c).fd ∧ obj.activity = .connected ∧
        s.heap.Grown heap obj.sendptr ∧
        s.serverSendStore c data len granted =
          (true, { s with heap, conns := Function.update s.conns c obj, sent })) := by
  unfold serverSendStore
  by_cases goes : len > 0 ∧ (s.conns c).activity = .connected
  · refine .inr ⟨goes.1, goes.2, ?_⟩
    rw [if_pos goes]
    exact ⟨_, { s.conns c with
      sendptr := (cStrMalloc s.heap granted data len).1, sendlen := len.toNat }, _,
      rfl, goes.2, cStrMalloc_grown _ _ _ _, rfl⟩
  · rw [if_neg goes]
    exact .inl rfl

/-- `ServerSend` does nothing, or changes the interest of a connected object whose send fields
it replaced. -/
theorem serverSend_cases (s : Server) (c : ConnPtr) (data : Option Memory) (len : Int)
    (granted : Bool) :
    s.serverSend c data len granted = s ∨
    (0 < len ∧ (s.conns c).activity = .connected ∧
      ∃ heap obj sent, obj.fd = (s.conns c).fd ∧ obj.activity = .connected ∧
        s.heap.Grown heap obj.sendptr ∧
        s.serverSend c data len granted =
          (({ s with heap, conns := Function.update s.conns c obj, sent } :
            Server).epollEventModifyConn c eventWriteBits).2) := by
  unfold serverSend
  rcases s.serverSendStore_cases c data len granted with
    idle | ⟨positive, connected, heap, obj, sent, fd, activity, grown, stored⟩
  · exact .inl (by rw [idle])
  · exact .inr ⟨positive, connected, heap, obj, sent, fd, activity, grown, by rw [stored]⟩

/-- The server after the callback closed a descriptor with a pending error. -/
def severed (s : Server) (c : ConnPtr) : Server :=
  { s with
    kernel := (s.kernel.log (.getsockopt (s.conns c).fd)).close (s.conns c).fd
    conns := Function.update s.conns c { s.conns c with activity := .connclosed } }

/-- The `SO_ERROR` part of the callback: the call failed, or the descriptor is open and either
has no error or is closed. -/
theorem callbackSockopt_cases (s : Server) (c : ConnPtr) (answer : Option Int) :
    (s.callbackSockopt c answer =
        (false, { s with kernel := s.kernel.log (.getsockopt (s.conns c).fd) }) ∧
      (answer = none ∨ s.kernel.sock (s.conns c).fd = none)) ∨
    ((s.kernel.sock (s.conns c).fd).isSome = true ∧ answer = some 0 ∧
      s.callbackSockopt c answer = (true, { s with
        kernel := s.kernel.log (.getsockopt (s.conns c).fd)
        conns := Function.update s.conns c { s.conns c with activity := .connected } })) ∨
    ((s.kernel.sock (s.conns c).fd).isSome = true ∧ (∃ val, answer = some val ∧ val ≠ 0) ∧
      s.callbackSockopt c answer = (true, s.severed c)) := by
  have logged := Kernel.getsockopt_log s.kernel (s.conns c).fd answer
  unfold callbackSockopt
  split
  · rename_i kernel called
    rw [called] at logged
    simp only at logged
    refine .inl ⟨by rw [logged], ?_⟩
    have failed := congrArg Prod.fst called
    unfold Kernel.getsockopt at failed
    split at failed
    · exact .inl failed
    · exact .inr ‹_›
  · rename_i val kernel called
    rw [called] at logged
    simp only at logged
    obtain ⟨isOpen, given⟩ := Kernel.getsockopt_some (congrArg Prod.fst called)
    split
    · rename_i zero
      exact .inr (.inl ⟨isOpen, by rw [given, zero], by rw [logged]⟩)
    · rename_i nonzero
      exact .inr (.inr ⟨isOpen, ⟨val, given, nonzero⟩, by rw [logged]; rfl⟩)

/-- The kernel after `accept` returned a descriptor. -/
def acceptedKernel (k : Kernel) (inc : Kernel.Incoming) : Kernel :=
  { k.log (.opened inc.fd) with
    sock := Function.update k.sock inc.fd (some ⟨inc.bytes, inc.fin, k.accepted + 1⟩)
    accepted := k.accepted + 1 }

/-- The accepting loop changes nothing unless it returns a free number it was offered. -/
theorem acceptLoop_cases (listening : Fd) (script : List (Except Errno Kernel.Incoming))
    (k : Kernel) :
    (∃ result, acceptLoop listening script k = (result, k) ∧ (result = none ∨ result = some none)) ∨
    ∃ inc, .ok inc ∈ script ∧ k.Free inc.fd ∧ (k.sock listening).isSome = true ∧
      acceptLoop listening script k = (some (some inc.fd), acceptedKernel k inc) := by
  induction script with
  | nil => exact .inl ⟨none, rfl, .inl rfl⟩
  | cons answer rest ih =>
    cases answer with
    | error e =>
      cases e with
      | eintr =>
        rcases ih with ⟨result, looped, kind⟩ | ⟨inc, member, free, isOpen, looped⟩
        · exact .inl ⟨result, looped, kind⟩
        · exact .inr ⟨inc, List.mem_cons_of_mem _ member, free, isOpen, looped⟩
      | eagain => exact .inl ⟨some none, rfl, .inr rfl⟩
      | other => exact .inl ⟨some none, rfl, .inr rfl⟩
    | ok inc =>
      by_cases grants : k.Free inc.fd ∧ (k.sock listening).isSome = true
      · refine .inr ⟨inc, List.mem_cons_self, grants.1, grants.2, ?_⟩
        simp only [acceptLoop, Kernel.accept, if_pos grants]
        rfl
      · refine .inl ⟨some none, ?_, .inr rfl⟩
        simp only [acceptLoop, Kernel.accept, if_neg grants]

/-- The object `getConn` returns: as it lay in the pool, or created and reset. -/
def takenConn (s : Server) (c : ConnPtr) : ConnObj :=
  if s.pool = [] then connobjReset (createNewConnObj (s.conns c)) else s.conns c

/-- `getConn` hands out the roster's next object, or fails with an empty pool. -/
theorem getConn_cases (s : Server) (granted : Bool) :
    (s.getConn granted = (none, s) ∧ s.pool = [] ∧ granted = false) ∨
    ∃ c rest nconn, s.roster.Next c rest nconn ∧
      s.getConn granted = (some c, { s with
        pool := rest, nconn, conns := Function.update s.conns c (s.takenConn c) }) := by
  cases queue : s.pool with
  | nil =>
    cases granted with
    | false =>
      refine .inl ⟨?_, rfl, rfl⟩
      simp only [getConn, queue, dataQueuePop, Bool.false_eq_true, if_false]
      rw [← queue]
    | true =>
      refine .inr ⟨s.nconn, [], s.nconn + 1, .fresh queue, ?_⟩
      simp only [getConn, takenConn, queue, dataQueuePop, if_true]
  | cons c rest =>
    refine .inr ⟨c, rest, s.nconn, .pooled queue, ?_⟩
    simp only [getConn, takenConn, queue, dataQueuePop, reduceCtorEq, if_false,
      Function.update_eq_self]

/-- The server after `Server_Accept` gave the next object the descriptor it accepted. -/
def acceptedConn (s : Server) (inc : Kernel.Incoming) (c : ConnPtr) (rest : List ConnPtr)
    (nconn : ConnPtr) : Server :=
  { s with
    kernel := acceptedKernel s.kernel inc
    pool := rest
    nconn
    conns := Function.update s.conns c { s.takenConn c with fd := inc.fd, activity := .connecting }
    client := Function.update s.client c (s.kernel.accepted + 1) }

/-- The server after a successful `Server_Accept`. -/
def admitted (s : Server) (inc : Kernel.Incoming) (c : ConnPtr) (rest : List ConnPtr)
    (nconn : ConnPtr) : Server :=
  { s.acceptedConn inc c rest nconn with
    kernel := ((acceptedKernel s.kernel inc).log (.epollCtl inc.fd)).register inc.fd ⟨acceptMask, c⟩
    event := Function.update s.event 0 ⟨acceptMask, c⟩ }

/-- The server after a `Server_Accept` whose registration was refused. -/
def refused (s : Server) (inc : Kernel.Incoming) (c : ConnPtr) (rest : List ConnPtr)
    (nconn : ConnPtr) : Server :=
  (({ s.acceptedConn inc c rest nconn with
    kernel := (acceptedKernel s.kernel inc).log (.epollCtl inc.fd)
    event := Function.update s.event 0 ⟨acceptMask, c⟩ } : Server).setConn c).acceptErr inc.fd

/-- The server after a `Server_Accept` that found no connection object. -/
def dropped (s : Server) (inc : Kernel.Incoming) : Server :=
  ({ s with kernel := acceptedKernel s.kernel inc } : Server).acceptErr inc.fd

/-- Everything `Server_Accept` can do up to its registration: nothing; accept and drop; or give the
next object the new descriptor. -/
theorem acceptConn_cases (s : Server) (input : AcceptInput) :
    (∃ result, (result = none ∨ result = some none) ∧ s.acceptConn input = (result, s)) ∨
    ∃ inc, .ok inc ∈ input.script ∧ s.kernel.Free inc.fd ∧
      (s.kernel.sock (s.conns serverConn).fd).isSome = true ∧
      ((s.pool = [] ∧ s.acceptConn input = (some none, s.dropped inc)) ∨
        ∃ c rest nconn, s.roster.Next c rest nconn ∧
          s.acceptConn input = (some (some (c, inc.fd)), s.acceptedConn inc c rest nconn)) := by
  unfold acceptConn
  rcases acceptLoop_cases (s.conns serverConn).fd input.script s.kernel with
    ⟨result, looped, kind⟩ | ⟨inc, offered, free, isOpen, looped⟩
  · refine .inl ⟨result.map fun _ => none, ?_, ?_⟩
    · rcases kind with rfl | rfl <;> simp
    · rcases kind with rfl | rfl <;> rw [looped] <;> rfl
  · refine .inr ⟨inc, offered, free, isOpen, ?_⟩
    simp only [looped]
    rcases getConn_cases { s with kernel := acceptedKernel s.kernel inc } input.connGranted with
      ⟨failed, empty, _⟩ | ⟨c, rest, nconn, next, given⟩
    · exact .inl ⟨empty, by rw [failed]; rfl⟩
    · refine .inr ⟨c, rest, nconn, ?_, ?_⟩
      · cases next with
        | pooled queue => exact .pooled queue
        | fresh queue => exact .fresh queue
      · rw [given]
        simp only [Function.update_self, Function.update_idem]
        rfl

/-- Its registration lends the object, or is refused. -/
theorem acceptAdd_cases (s : Server) (inc : Kernel.Incoming) (c : ConnPtr) (rest : List ConnPtr)
    (nconn : ConnPtr) (granted : Bool) :
    (s.acceptedConn inc c rest nconn).acceptAdd c inc.fd granted =
        (some c, s.admitted inc c rest nconn) ∨
    (s.kernel.reg inc.fd = none → granted = false) ∧
      (s.acceptedConn inc c rest nconn).acceptAdd c inc.fd granted =
        (none, s.refused inc c rest nconn) := by
  simp only [acceptAdd, acceptedConn, epollEventAddConn, Kernel.ctlAdd, Function.update_self]
  by_cases added : (((acceptedKernel s.kernel inc).sock inc.fd).isSome &&
      ((acceptedKernel s.kernel inc).reg inc.fd).isNone && granted) = true
  · refine .inl ?_
    simp only [added, if_true, ne_eq, not_true_eq_false, if_false]
    rfl
  · refine .inr ⟨fun unregistered => ?_, ?_⟩
    · simpa [acceptedKernel, unregistered] using added
    · simp only [added, if_false, ne_eq, reduceCtorEq]
      rfl

/-- Everything `Server_Accept` can do: nothing; accept and drop; lend the next object under the
new descriptor; or have its registration refused. -/
theorem serverAccept_cases (s : Server) (input : AcceptInput) :
    (∃ result, (result = none ∨ result = some none) ∧ s.serverAccept input = (result, s)) ∨
    ∃ inc, .ok inc ∈ input.script ∧ s.kernel.Free inc.fd ∧
      (s.kernel.sock (s.conns serverConn).fd).isSome = true ∧
      ((s.pool = [] ∧ s.serverAccept input = (some none, s.dropped inc)) ∨
        ∃ c rest nconn, s.roster.Next c rest nconn ∧
          (s.serverAccept input = (some (some c), s.admitted inc c rest nconn) ∨
            (s.kernel.reg inc.fd = none → input.granted = false) ∧
              s.serverAccept input = (some none, s.refused inc c rest nconn))) := by
  unfold serverAccept
  rcases s.acceptConn_cases input with
    ⟨result, kind, accepted⟩ | ⟨inc, offered, free, isOpen, ⟨empty, accepted⟩ |
      ⟨c, rest, nconn, next, accepted⟩⟩
  · refine .inl ⟨result.map fun _ => none, ?_, ?_⟩
    · rcases kind with rfl | rfl <;> simp
    · rcases kind with rfl | rfl <;> rw [accepted] <;> rfl
  · exact .inr ⟨inc, offered, free, isOpen, .inl ⟨empty, by rw [accepted]⟩⟩
  · refine .inr ⟨inc, offered, free, isOpen, .inr ⟨c, rest, nconn, next, ?_⟩⟩
    simp only [accepted]
    rcases s.acceptAdd_cases inc c rest nconn input.granted with lent | ⟨refusal, refused⟩
    · exact .inl (by rw [lent])
    · exact .inr ⟨refusal, by rw [refused]⟩

/-! ## What accepting and closing do to the roster -/

/-- Closing a number other than zero after a failed accept. -/
theorem acceptErr_of_ne {s : Server} {fd : Fd} (nonzero : fd ≠ 0) :
    s.acceptErr fd = { s with kernel := s.kernel.close fd } := if_pos nonzero

/-- Before its registration the next object is taken. -/
theorem roster_acceptedConn (s : Server) (inc : Kernel.Incoming) (c : ConnPtr)
    (rest : List ConnPtr) (nconn : ConnPtr) :
    (s.acceptedConn inc c rest nconn).roster = s.roster.take c rest nconn inc.fd := by
  unfold roster Roster.take acceptedConn
  congr 1
  · funext x
    by_cases same : x = inc.fd
    · simp [same, acceptedKernel]
    · simp [same, acceptedKernel]
  · funext x
    by_cases same : x = c
    · simp [same]
    · simp [Function.update_of_ne same]

/-- A successful accept lends the next object. -/
theorem roster_admitted (s : Server) (inc : Kernel.Incoming) (c : ConnPtr) (rest : List ConnPtr)
    (nconn : ConnPtr) :
    (s.admitted inc c rest nconn).roster = s.roster.lend c rest nconn inc.fd := by
  unfold roster Roster.lend admitted acceptedConn
  congr 1
  · funext x
    by_cases same : x = inc.fd
    · simp [same, acceptedKernel, Kernel.register]
    · simp [same, acceptedKernel, Kernel.register]
  · funext x
    by_cases same : x = inc.fd
    · simp [same, Kernel.register]
    · simp [acceptedKernel, Kernel.register, Function.update_of_ne same]
  · funext x
    by_cases same : x = c
    · simp [same]
    · simp [Function.update_of_ne same]

/-- Accepting a number and closing it again changes no table. -/
theorem sameTable_accepted_close {k : Kernel} {inc : Kernel.Incoming}
    (closed : k.sock inc.fd = none) (unregistered : k.reg inc.fd = none) :
    k.SameTable ((acceptedKernel k inc).close inc.fd) := by
  constructor
  · intro x
    by_cases same : x = inc.fd
    · simp [same, Kernel.close, closed]
    · simp [Kernel.close, acceptedKernel, Function.update_of_ne same]
  · intro x
    by_cases same : x = inc.fd
    · simp [same, Kernel.close, unregistered]
    · simp [Kernel.close, acceptedKernel, Function.update_of_ne same]

/-- An accept that found no object leaves the roster. -/
theorem roster_dropped {s : Server} {inc : Kernel.Incoming} (nonzero : inc.fd ≠ 0)
    (closed : s.kernel.sock inc.fd = none) (unregistered : s.kernel.reg inc.fd = none) :
    (s.dropped inc).roster = s.roster := by
  unfold dropped
  rw [acceptErr_of_ne nonzero]
  exact roster_congr (sameTable_accepted_close closed unregistered) (fun _ => rfl) rfl rfl

/-- A refused registration bounces the loan. -/
theorem roster_refused {s : Server} {inc : Kernel.Incoming} {c : ConnPtr} {rest : List ConnPtr}
    {nconn : ConnPtr} (nonzero : inc.fd ≠ 0) (closed : s.kernel.sock inc.fd = none)
    (unregistered : s.kernel.reg inc.fd = none) :
    (s.refused inc c rest nconn).roster = s.roster.bounce c rest nconn inc.fd := by
  have table := sameTable_accepted_close closed unregistered
  unfold refused
  rw [acceptErr_of_ne nonzero]
  unfold roster Roster.bounce
  congr 1
  · funext x
    exact congrArg (· = true) (table.isOpen x)
  · funext x
    exact table.owner x
  · funext x
    by_cases same : x = c
    · simp [same, setConn, acceptedConn, connobjReset]
    · simp [setConn, acceptedConn, Function.update_of_ne same]

/-- Closing a descriptor with a pending error severs its object. -/
theorem roster_severed (s : Server) (c : ConnPtr) :
    (s.severed c).roster = s.roster.sever c := by
  unfold roster Roster.sever severed
  congr 1
  · funext x
    by_cases same : x = (s.conns c).fd
    · simp [same, Kernel.close]
    · simp [same, Kernel.close]
  · funext x
    by_cases same : x = (s.conns c).fd
    · simp [same, Kernel.close]
    · simp [Kernel.close, Function.update_of_ne same]
  · funext x
    exact fd_update (by rfl) x

end Server

end EpollNet
