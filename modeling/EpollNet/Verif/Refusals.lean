import EpollNet.Verif.Reading

/-!
# The data path when allocations are refused

`ServerSend` stores what `CStr_Malloc` returned and asks for writability before it looks whether
that is `NULL`. `event_read` has taken the bytes from the socket when it allocates a copy and an
item: without the item it drops them and the copy, and without the copy it queues the item. Nor
does it keep the bytes of a full buffer, unless the peer's end of the stream follows at once.
-/

namespace EpollNet

/-! ## `ServerSend` -/

namespace Server

/-- A `ServerSend` whose `CStr_Malloc` fails leaves the send fields and the registration. -/
def SendKeeps (s : Server) (c : ConnPtr) (data : Option Memory) (len : Int) (granted : Bool) :
    Prop :=
  (cStrMalloc s.heap granted data len).1 = none →
    ((s.serverSend c data len granted).conns c).sendptr = (s.conns c).sendptr ∧
    ((s.serverSend c data len granted).conns c).sendlen = (s.conns c).sendlen ∧
    (s.serverSend c data len granted).kernel.reg (s.conns c).fd = s.kernel.reg (s.conns c).fd

/-- The object is as a `ServerSend` without a buffer leaves it. -/
def Stalled (s : Server) (c : ConnPtr) (len : Int) : Prop :=
  (s.conns c).sendptr = none ∧ (s.conns c).sendlen = len.toNat ∧
    (s.kernel.sock (s.conns c).fd = none ∨ s.kernel.reg (s.conns c).fd = none ∨
      s.kernel.reg (s.conns c).fd = some ⟨modifyMask eventWriteBits, c⟩)

/-- `EPOLL_CTL_MOD` leaves the registration exactly if it fails or stores what was there. -/
theorem ctlMod_reg_iff (k : Kernel) (fd : Fd) (ev : EpollEvent) :
    (k.ctlMod fd ev).2.reg fd = k.reg fd ↔
      k.sock fd = none ∨ k.reg fd = none ∨ k.reg fd = some ev := by
  unfold Kernel.ctlMod
  cases isOpen : k.sock fd with
  | none => simp [Kernel.log]
  | some socket =>
    cases registered : k.reg fd with
    | none => simp [Kernel.log, registered]
    | some old => simp [Kernel.log, Kernel.register, eq_comm]

/-- A positive length gets a buffer exactly if there is data and the allocation succeeds. -/
theorem cStrMalloc_none_iff (h : Heap) (granted : Bool) (data : Option Memory) {len : Int}
    (positive : 0 < len) (small : len < 2 ^ 64) :
    (cStrMalloc h granted data len).1 = none ↔ ¬(data.isSome = true ∧ granted = true) := by
  have size : 0 < (len % 2 ^ 64).toNat := by omega
  unfold cStrMalloc cStrCreate
  cases data with
  | none => simp
  | some m => cases granted <;> simp only [size, if_true, Bool.false_eq_true, if_false] <;> simp

/-- `ServerSend` with an `int` length keeps what it should exactly if it gets a buffer, does
nothing, or finds the object as it leaves it. -/
theorem sendKeeps_iff (s : Server) (c : ConnPtr) (data : Option Memory) {len : Int}
    (isInt : len < 2 ^ 31) (granted : Bool) :
    s.SendKeeps c data len granted ↔
      data.isSome = true ∧ granted = true ∨
        len ≤ 0 ∨ (s.conns c).activity ≠ .connected ∨ s.Stalled c len := by
  unfold SendKeeps
  by_cases goes : len > 0 ∧ (s.conns c).activity = .connected
  · rw [cStrMalloc_none_iff s.heap granted data goes.1 (by omega)]
    by_cases made : data.isSome = true ∧ granted = true
    · exact iff_of_true (fun failed => absurd made failed) (.inl made)
    · have failed : (cStrMalloc s.heap granted data len).1 = none :=
        (cStrMalloc_none_iff s.heap granted data goes.1 (by omega)).mpr made
      have idle : ¬(len ≤ 0 ∨ (s.conns c).activity ≠ .connected) := by
        rintro (empty | other)
        · exact absurd goes.1 (not_lt.mpr empty)
        · exact other goes.2
      have after : s.serverSend c data len granted = (({ s with
          heap := (cStrMalloc s.heap granted data len).2
          conns := Function.update s.conns c
            { s.conns c with sendptr := none, sendlen := len.toNat } } :
              Server).epollEventModifyConn c eventWriteBits).2 := by
        simp only [serverSend, serverSendStore, goes, and_self, if_true, failed]
      rw [or_iff_right made, ← or_assoc, or_iff_right idle, after, Stalled]
      simp only [made, not_false_eq_true, true_imp_iff, epollEventModifyConn,
        Function.update_self, ctlMod_reg_iff]
      rw [eq_comm (a := none), eq_comm (a := len.toNat)]
  · have idle : len ≤ 0 ∨ (s.conns c).activity ≠ .connected := by
      by_cases positive : len > 0
      · exact .inr fun connected => goes ⟨positive, connected⟩
      · exact .inl (not_lt.mp positive)
    have after : s.serverSend c data len granted = s := by
      simp only [serverSend, serverSendStore, goes, if_false]
    rw [after]
    exact iff_of_true (fun _ => ⟨rfl, rfl, rfl⟩) (.inr (or_assoc.mp (.inl idle)))

end Server

/-! ## What the results of `read` come to -/

section Loop

variable {fd : Fd} {len nLen : Nat} {script : List ReadAnswer} {ptr : Memory} {k : Kernel}
  {ret : Int}

/-- The first deciding read fills the buffer when its result says so. -/
theorem fullRead_iff (script : List ReadAnswer) (k : Kernel) : fullRead fd len script k = true ↔
    (deciding (readResults fd len script k)).head? = some (.ok len) := by
  induction script generalizing k with
  | nil => simp [fullRead, readResults, deciding]
  | cons answer rest ih =>
    rw [fullRead.eq_def, readResults]
    obtain ⟨arrivals, result⟩ := answer
    cases isOpen : (k.arriveAll arrivals).sock fd with
    | none =>
      have failed : (k.arriveAll arrivals).read fd len result =
          (.error .other, (k.arriveAll arrivals).log (.read fd [])) := by
        simp only [Kernel.read, isOpen]
      simp only [isOpen, failed]
      cases result <;> exact ih _
    | some socket =>
      cases result with
      | ok n =>
        simp only [Kernel.read, isOpen, Except.map, List.length_take, decide_eq_true_eq]
        simp only [deciding, List.filter_cons, decides, if_true, List.head?_cons, Option.some.injEq,
          Except.ok.injEq]
        omega
      | error e =>
        cases e with
        | eintr =>
          simp only [Kernel.read, isOpen]
          exact ih _
        | eagain => simp [Kernel.read, isOpen, deciding, decides, Except.map]
        | other =>
          simp only [Kernel.read, isOpen]
          exact ih _

/-- A loop that returned did so on an open descriptor. -/
theorem readLoop_open (returned : (readLoop fd len script nLen ptr k).ret = some ret) :
    ((readLoop fd len script nLen ptr k).kernel.sock fd).isSome = true := by
  induction script generalizing nLen ptr k with
  | nil => simp [readLoop] at returned
  | cons answer rest ih =>
    rw [readLoop] at returned ⊢
    obtain ⟨arrivals, result⟩ := answer
    cases isOpen : (k.arriveAll arrivals).sock fd with
    | none =>
      simp only [Kernel.read, isOpen] at returned ⊢
      exact ih returned
    | some socket =>
      cases result with
      | ok n =>
        simp only [Kernel.read, isOpen] at returned ⊢
        split at returned
        next positive =>
          rw [if_pos positive]
          split at returned
          next full =>
            rw [if_pos full]
            exact ih returned
          next full =>
            rw [if_neg full]
            simp
        next positive =>
          rw [if_neg positive]
          simp
      | error e =>
        cases e with
        | eintr =>
          simp only [Kernel.read, isOpen] at returned ⊢
          exact ih returned
        | eagain => simp [Kernel.read, isOpen, Kernel.log]
        | other =>
          simp only [Kernel.read, isOpen] at returned ⊢
          exact ih returned

/-- What a loop that returned met, with the bytes it received: a would-block or the end of the
stream and none; one read that did not fill the buffer, with its bytes in it; or a full buffer and a
second read. -/
inductive Met (fd : Fd) (len : Nat) (script : List ReadAnswer) (ptr : Memory) (k : Kernel) :
    Int → Prop
  /-- A would-block. -/
  | blocked : (deciding (readResults fd len script k)).head? = some (.error .eagain) →
      receivedOn fd (readLoop fd len script 0 ptr k).kernel.trace = receivedOn fd k.trace →
      Met fd len script ptr k (-2)
  /-- The end of the stream. -/
  | ended : (deciding (readResults fd len script k)).head? = some (.ok 0) →
      receivedOn fd (readLoop fd len script 0 ptr k).kernel.trace = receivedOn fd k.trace →
      Met fd len script ptr k 0
  /-- Fewer bytes than the buffer holds. -/
  | short (got : List UInt8) :
      (deciding (readResults fd len script k)).head? = some (.ok got.length) →
      0 < got.length → got.length < len →
      (readLoop fd len script 0 ptr k).ptr = ptr.store got →
      receivedOn fd (readLoop fd len script 0 ptr k).kernel.trace = receivedOn fd k.trace ++ got →
      Met fd len script ptr k got.length
  /-- A full buffer, and then the result of a second read. -/
  | full (second : Except Errno Nat) (rest : List (Except Errno Nat)) (bytes : List UInt8)
      (ret : Int) :
      deciding (readResults fd len script k) = .ok len :: second :: rest → bytes ≠ [] →
      receivedOn fd (readLoop fd len script 0 ptr k).kernel.trace =
        receivedOn fd k.trace ++ bytes →
      verdict len len (second :: rest) = some ret → Met fd len script ptr k ret

/-- A loop whose first deciding read does not fill the buffer ends with it. -/
theorem Met.of_not_full (returned : (readLoop fd len script 0 ptr k).ret = some ret)
    (notWhole : fullRead fd len script k = false) : Met fd len script ptr k ret := by
  have notLen : (deciding (readResults fd len script k)).head? ≠ some (.ok len) :=
    fun filled => Bool.false_ne_true (notWhole.symm.trans ((fullRead_iff script k).mpr filled))
  have value := (readLoop_verdict script).symm.trans returned
  have outcome := readLoop_short notWhole returned
  cases results : deciding (readResults fd len script k) with
  | nil =>
    rw [results] at value
    cases value
  | cons first rest =>
    rw [results] at value notLen
    have head : (deciding (readResults fd len script k)).head? = some first := by
      rw [results]
      rfl
    cases first with
    | error e =>
      obtain rfl : -2 = ret := Option.some.inj value
      have member : .error e ∈ deciding (readResults fd len script k) := by simp [results]
      have kind : decides (.error e) = true := (List.mem_filter.mp member).2
      obtain rfl : e = .eagain := by simpa [decides] using kind
      rcases outcome with ⟨_, received⟩ | ⟨got, some', _, count, _⟩
      · exact .blocked head received
      · omega
    | ok n =>
      by_cases none' : n = 0
      · subst none'
        obtain rfl : 0 = ret := Option.some.inj value
        rcases outcome with ⟨_, received⟩ | ⟨got, some', _, count, _⟩
        · exact .ended head received
        · omega
      · have less : 0 + n ≠ len := by
          rintro rfl
          exact notLen (by simp)
        rw [verdict, if_pos (Nat.pos_of_ne_zero none'), if_neg less] at value
        obtain rfl := Option.some.inj value
        rcases outcome with ⟨nothing, _⟩ | ⟨got, some', few, count, ptr', received⟩
        · omega
        · obtain rfl : n = got.length := by omega
          rw [Nat.zero_add]
          exact .short got head some' few ptr' received

/-- A loop that returned met one of these. -/
theorem readLoop_met (positive : 0 < len)
    (returned : (readLoop fd len script 0 ptr k).ret = some ret) : Met fd len script ptr k ret := by
  cases whole : fullRead fd len script k with
  | true =>
    obtain ⟨rest, results⟩ := List.head?_eq_some_iff.mp ((fullRead_iff script k).mp whole)
    obtain ⟨⟨bytes, nonempty, received⟩, _⟩ := readLoop_full positive whole returned
    have value := (readLoop_verdict script).symm.trans returned
    rw [results, verdict, if_pos positive, Nat.zero_add, if_pos rfl] at value
    cases rest with
    | nil => cases value
    | cons second rest => exact .full second rest bytes ret results nonempty received value
  | false => exact .of_not_full returned whole

end Loop

/-! ## `event_read` -/

namespace Server

/-- The call of `event_read` from `s` to `s'` lost nothing: no item of bytes without a buffer, every
block it allocated freed or in an item it queued, and the bytes it received, unless it closed the
descriptor, in the one item it queued, from the buffer they were read into. -/
structure Careful (s : Server) (c : ConnPtr) (s' : Server) : Prop where
  /-- Items of bytes have buffers. -/
  buffered : ∀ item ∈ s'.rqueue.drop s.rqueue.length, item.recvlen > 0 → item.recvptr ≠ none
  /-- No block is lost. -/
  kept : ∀ addr, s.heap.next ≤ addr → addr < s'.heap.next → addr ∈ s'.heap.freed ∨
    ∃ item ∈ s'.rqueue.drop s.rqueue.length, addr = item.addr ∨
      ∃ b, item.recvptr = some b ∧ addr = b.addr
  /-- No bytes are lost while the descriptor is open. -/
  delivered : ∀ bytes, bytes ≠ [] → receivedOn (s.conns c).fd s'.kernel.trace =
      receivedOn (s.conns c).fd s.kernel.trace ++ bytes →
    (s'.kernel.sock (s.conns c).fd).isSome = true →
    ∃ item b, s'.rqueue = s.rqueue ++ [item] ∧ item.connobj = c ∧ item.recvptr = some b ∧
      item.recvlen = bytes.length ∧ b.str.buf.take item.recvlen = bytes ∧
      item.recvlen ≤ recvbufferSize

/-- A call that followed no `NULL` and lost nothing. -/
def CarefulEnd (s : Server) (c : ConnPtr) : Option (Bool × Server) → Prop
  | none => False
  | some (_, s') => s.Careful c s'

/-- The deciding results of `read`, and the allocations after one: a would-block or the end of the
stream; fewer bytes than the buffer holds, and all three allocations succeed; or a full buffer and
then the end of the stream, on a descriptor that is closed by its number. -/
def Harmless (fd : Fd) (input : ReadInput) (nodeGranted : Bool)
    (results : List (Except Errno Nat)) : Prop :=
  results.head? = some (.error .eagain) ∨ results.head? = some (.ok 0) ∨
    (∃ n, results.head? = some (.ok n) ∧ 0 < n ∧ n < recvbufferSize ∧
      input.strGranted = true ∧ input.itemGranted = true ∧ nodeGranted = true) ∨
    ∃ rest, results = .ok recvbufferSize :: .ok 0 :: rest ∧ 0 < fd

variable {s s' : Server} {c : ConnPtr} {input : ReadInput}

/-- Without an item and an allocation nothing is lost if nothing was received or the descriptor was
closed. -/
theorem Careful.of_quiet (queue : s'.rqueue = s.rqueue) (heap : s'.heap = s.heap)
    (quiet : receivedOn (s.conns c).fd s'.kernel.trace = receivedOn (s.conns c).fd s.kernel.trace ∨
      s'.kernel.sock (s.conns c).fd = none) : s.Careful c s' := by
  refine ⟨fun item member => ?_, fun addr low high => ?_, fun bytes some received isOpen => ?_⟩
  · rw [queue, List.drop_length] at member
    contradiction
  · rw [heap] at high
    omega
  · rcases quiet with same | closed
    · rw [same] at received
      exact absurd (List.self_eq_append_right.mp received) some
    · rw [closed] at isOpen
      contradiction

/-- Without an item bytes received on a descriptor that stays open are lost. -/
theorem not_careful (queue : s'.rqueue = s.rqueue) {bytes : List UInt8} (some : bytes ≠ [])
    (received : receivedOn (s.conns c).fd s'.kernel.trace =
      receivedOn (s.conns c).fd s.kernel.trace ++ bytes)
    (isOpen : (s'.kernel.sock (s.conns c).fd).isSome = true) : ¬s.Careful c s' := by
  intro careful
  obtain ⟨item, _, pushed, _⟩ := careful.delivered bytes some received isOpen
  rw [queue] at pushed
  simpa using congrArg List.length pushed

/-- The end of a connection allocates and frees nothing. -/
theorem hangUp_heap (s : Server) (c : ConnPtr) : (s.hangUp c).heap = s.heap := by
  unfold hangUp setConn closeConnObj
  split <;> rfl

/-- `event_read` after a would-block. -/
theorem eventRead_blocked (returned : s.recvlen c input = some (-2)) :
    (s.eventRead c input).2 = s.received c input := by
  unfold recvlen at returned
  simp [eventRead, eventReadRecv, returned, received, readKernel]

/-- `event_read` after the end of the stream. -/
theorem eventRead_ended (returned : s.recvlen c input = some 0) :
    (s.eventRead c input).2 = (s.received c input).hangUp c := by
  unfold recvlen at returned
  simp [eventRead, eventReadRecv, returned, received, readKernel, hangUp]

/-- `event_read` after some bytes: without an item it keeps the queue, with one it appends it, and
the item has a buffer if the copy was granted. -/
theorem eventRead_counted {count : Nat} (returned : s.recvlen c input = some (count : Int))
    (positive : 0 < count) :
    (s.eventRead c input).2.kernel = (s.received c input).kernel ∧
    (input.itemGranted = false → (s.eventRead c input).2.rqueue = s.rqueue) ∧
    (input.itemGranted = true → ∃ item, (s.eventRead c input).2.rqueue = s.rqueue ++ [item] ∧
      item.recvlen = count ∧ (input.strGranted = false → item.recvptr = none)) := by
  unfold recvlen at returned
  unfold eventRead eventReadRecv
  have nonzero : ¬(count : Int) = 0 := by omega
  have counted : (count : Int) > 0 := by omega
  simp only [returned, nonzero, counted, if_true, if_false]
  cases input.itemGranted with
  | false => exact ⟨rfl, fun _ => rfl, fun granted => nomatch granted⟩
  | true =>
    refine ⟨rfl, fun refused => (nomatch refused), fun _ => ⟨_, rfl, rfl, fun refused => ?_⟩⟩
    simp only [cStrMalloc, cStrCreate, refused, Bool.false_eq_true, if_false]

/-- Fewer bytes than the buffer holds need all three allocations. -/
theorem harmless_short {fd : Fd} {results : List (Except Errno Nat)} {n : Nat} {nodeGranted : Bool}
    (head : results.head? = some (.ok n)) (positive : 0 < n) (short : n < recvbufferSize) :
    Harmless fd input nodeGranted results ↔
      input.strGranted = true ∧ input.itemGranted = true ∧ nodeGranted = true := by
  constructor
  · rintro (blocked | ended | ⟨m, _, _, _, granted⟩ | ⟨rest, rfl, _⟩)
    · rw [head] at blocked
      cases blocked
    · rw [head] at ended
      cases ended
      exact absurd positive (lt_irrefl 0)
    · exact granted
    · cases head
      exact absurd short (lt_irrefl _)
  · exact fun granted => .inr (.inr (.inl ⟨n, head, positive, short, granted⟩))

/-- A full buffer needs the end of the stream. -/
theorem harmless_full {fd : Fd} {second : Except Errno Nat} {rest : List (Except Errno Nat)}
    {nodeGranted : Bool} :
    Harmless fd input nodeGranted (.ok recvbufferSize :: second :: rest) ↔
      second = .ok 0 ∧ 0 < fd := by
  have size : recvbufferSize = 16384 := rfl
  constructor
  · rintro (blocked | ended | ⟨n, head, _, short, _⟩ | ⟨rest', results, positive⟩)
    · cases blocked
    · cases ended
    · cases head
      exact absurd short (lt_irrefl _)
    · cases results
      exact ⟨rfl, positive⟩
  · rintro ⟨rfl, positive⟩
    exact .inr (.inr (.inr ⟨rest, rfl, positive⟩))

/-- With both allocations bytes that fit the buffer are delivered and no block is lost. -/
theorem careful_short {got : List UInt8} (returned : s.recvlen c input = some (got.length : Int))
    (some' : 0 < got.length) (short : got.length < recvbufferSize)
    (ptr : (readData (s.conns c) (recvbuffer input.beyond) recvbufferSize input.script
      s.kernel).ptr = (recvbuffer input.beyond).store got)
    (received : receivedOn (s.conns c).fd (s.received c input).kernel.trace =
      receivedOn (s.conns c).fd s.kernel.trace ++ got)
    (str : input.strGranted = true) (granted : input.itemGranted = true) :
    s.Careful c (s.eventRead c input).2 := by
  have size : recvbufferSize = 16384 := rfl
  obtain ⟨client, after⟩ := eventRead_granted returned some' (by omega) str granted
  rw [ptr, copy_store] at after
  rw [after]
  refine ⟨fun item member _ => ?_, fun addr low high => .inr ?_, fun bytes _ consumed _ => ?_⟩
  · rw [List.drop_left] at member
    obtain rfl := List.mem_singleton.mp member
    exact Option.some_ne_none _
  · rw [List.drop_left]
    refine ⟨_, List.mem_singleton_self _, ?_⟩
    have either : addr = s.heap.next + 1 ∨ addr = s.heap.next := by
      simp only at high
      omega
    exact either.imp id fun copy => ⟨_, rfl, copy⟩
  · obtain rfl : got = bytes := List.append_cancel_left (received.symm.trans consumed)
    refine ⟨_, _, rfl, rfl, rfl, rfl, ?_, short.le⟩
    exact List.take_left

/-- Bytes that `event_read` did not hang up on need a copy, an item and a count within the
buffer. -/
theorem Careful.of_counted {count : Nat} {bytes : List UInt8}
    (returned : s.recvlen c input = some (count : Int)) (positive : 0 < count) (some' : bytes ≠ [])
    (received : receivedOn (s.conns c).fd (s.received c input).kernel.trace =
      receivedOn (s.conns c).fd s.kernel.trace ++ bytes)
    (isOpen : ((s.received c input).kernel.sock (s.conns c).fd).isSome = true)
    (careful : s.Careful c (s.eventRead c input).2) :
    input.strGranted = true ∧ input.itemGranted = true ∧ count ≤ recvbufferSize := by
  obtain ⟨kernel, dropped, queued⟩ := eventRead_counted returned positive
  rw [← kernel] at received isOpen
  have granted : input.itemGranted = true := by
    by_contra refused
    exact not_careful (dropped (Bool.eq_false_iff.mpr refused)) some' received isOpen careful
  obtain ⟨item, pushed, length, unbuffered⟩ := queued granted
  have new : item ∈ (s.eventRead c input).2.rqueue.drop s.rqueue.length := by
    rw [pushed, List.drop_left]
    exact List.mem_singleton_self item
  refine ⟨?_, granted, ?_⟩
  · by_contra refused
    have none' : item.recvptr = none := unbuffered (Bool.eq_false_iff.mpr refused)
    exact careful.buffered item new (length ▸ positive) none'
  · obtain ⟨other, b, pushed', _, _, _, _, bound⟩ := careful.delivered bytes some' received isOpen
    obtain rfl : item = other := by
      have same : [item] = [other] := List.append_cancel_left (pushed.symm.trans pushed')
      exact List.singleton_injective same
    exact length ▸ bound

/-- After a full buffer the end of the stream on a descriptor that is closed by its number loses
nothing; on one that is not, it does. -/
theorem careful_hangUp {bytes : List UInt8} (some' : bytes ≠ [])
    (received : receivedOn (s.conns c).fd (s.received c input).kernel.trace =
      receivedOn (s.conns c).fd s.kernel.trace ++ bytes)
    (isOpen : ((s.received c input).kernel.sock (s.conns c).fd).isSome = true) :
    s.Careful c ((s.received c input).hangUp c) ↔ 0 < (s.conns c).fd := by
  obtain ⟨same, queue'⟩ := hangUp_quiet (s.received c input) c (s.conns c).fd
  have queue : ((s.received c input).hangUp c).rqueue = s.rqueue := queue'
  constructor
  · intro careful
    by_contra negative
    have kept : ((s.received c input).hangUp c).kernel.sock = (s.received c input).kernel.sock := by
      have skipped : ¬((s.received c input).conns c).fd > 0 := negative
      simp only [hangUp, epollEventDelConn, closeConnObj, skipped, if_false, setConn, ctlDel_sock]
    rw [← same] at received
    rw [← kept] at isOpen
    exact not_careful queue some' received isOpen careful
  · intro positive
    have closed : ((s.received c input).hangUp c).kernel.sock (s.conns c).fd = none := by
      have named : 0 < ((s.received c input).conns c).fd := positive
      rw [hangUp_eq named]
      exact Function.update_self _ _ _
    exact .of_quiet queue (hangUp_heap _ c) (.inr closed)

/-- After a full buffer nothing is lost exactly if the end of the stream follows on a descriptor
that is closed by its number. -/
theorem careful_full {second : Except Errno Nat} {rest : List (Except Errno Nat)} {recvlen : Int}
    {bytes : List UInt8} (value : s.recvlen c input = some recvlen)
    (next : verdict recvbufferSize recvbufferSize (second :: rest) = some recvlen)
    (some' : bytes ≠ [])
    (received : receivedOn (s.conns c).fd (s.received c input).kernel.trace =
      receivedOn (s.conns c).fd s.kernel.trace ++ bytes)
    (isOpen : ((s.received c input).kernel.sock (s.conns c).fd).isSome = true) :
    s.Careful c (s.eventRead c input).2 ↔ second = .ok 0 ∧ 0 < (s.conns c).fd := by
  cases second with
  | error e =>
    obtain rfl : -2 = recvlen := Option.some.inj next
    refine iff_of_false ?_ (fun ended => nomatch ended.1)
    rw [eventRead_blocked value]
    exact not_careful rfl some' received isOpen
  | ok n =>
    by_cases none' : n = 0
    · subst none'
      obtain rfl : 0 = recvlen := Option.some.inj next
      rw [eventRead_ended value, careful_hangUp some' received isOpen]
      exact (and_iff_right rfl).symm
    · have more : recvbufferSize + n ≠ recvbufferSize := by omega
      rw [verdict, if_pos (Nat.pos_of_ne_zero none'), if_neg more] at next
      obtain rfl := Option.some.inj next
      have size : 0 < recvbufferSize := by decide
      refine iff_of_false (fun careful => ?_) (fun ended => none' (by simpa using ended.1))
      obtain ⟨_, _, bound⟩ := careful.of_counted value (by omega) some' received isOpen
      omega

/-- With its list node a call of `event_read` that returns loses nothing exactly if the deciding
results are harmless, with the allocations that follow them. -/
theorem eventRead_careful_iff (s : Server) (c : ConnPtr) (input : ReadInput)
    (returned : (s.eventRead c input).1 = true) :
    s.Careful c (s.eventRead c input).2 ↔ Harmless (s.conns c).fd input true
      (deciding (readResults (s.conns c).fd recvbufferSize input.script s.kernel)) := by
  have size : 0 < recvbufferSize := by decide
  obtain ⟨recvlen, value⟩ := recvlen_of_returned returned
  have isOpen : ((s.received c input).kernel.sock (s.conns c).fd).isSome = true :=
    readLoop_open value
  cases readLoop_met size value with
  | blocked head received =>
    refine iff_of_true ?_ (.inl head)
    rw [eventRead_blocked value]
    exact .of_quiet rfl rfl (.inl received)
  | ended head received =>
    refine iff_of_true ?_ (.inr (.inl head))
    rw [eventRead_ended value]
    obtain ⟨same, queue⟩ := hangUp_quiet (s.received c input) c (s.conns c).fd
    exact .of_quiet queue (hangUp_heap _ c) (.inl (same.trans received))
  | short got head some' short ptr received =>
    rw [harmless_short head some' short]
    constructor
    · intro careful
      have nonempty : got ≠ [] := List.ne_nil_of_length_pos some'
      obtain ⟨str, granted, _⟩ := careful.of_counted value some' nonempty received isOpen
      exact ⟨str, granted, rfl⟩
    · exact fun granted => careful_short value some' short ptr received granted.1 granted.2.1
  | full second rest bytes ret results some' received next =>
    rw [results, harmless_full]
    exact careful_full value next some' received isOpen

/-! ## The list node -/

/-- With its node it is `event_read`. -/
theorem eventReadNode_granted (s : Server) (c : ConnPtr) (input : ReadInput) :
    s.eventReadNode c input true = some (s.eventRead c input) := by
  unfold eventReadNode eventRead
  obtain ⟨outcome, s'⟩ := s.eventReadRecv c input
  cases outcome <;> rfl

/-- What does not get to the push does not need the node. -/
theorem eventReadNode_unpushed {recvlen : Int} (returned : s.recvlen c input = some recvlen)
    (nothing : recvlen ≤ 0) (nodeGranted : Bool) :
    s.eventReadNode c input nodeGranted = some (s.eventRead c input) := by
  have none' : ¬recvlen > 0 := not_lt.mpr nothing
  have received : ∀ item s', s.eventReadRecv c input ≠ (.item item, s') := by
    intro item s' made
    unfold Server.recvlen at returned
    simp only [eventReadRecv, returned, none', if_false] at made
    split at made
    · cases made
    · cases made
  unfold eventReadNode eventRead
  cases outcome : s.eventReadRecv c input with
  | mk first s' =>
    cases first with
    | item item => exact absurd outcome (received item s')
    | looping => rfl
    | finished => rfl

/-- Without the node bytes that were counted are followed by `NULL`, or no item is queued. -/
theorem eventReadNode_refused {count : Nat} (returned : s.recvlen c input = some (count : Int))
    (positive : 0 < count) : s.eventReadNode c input false = none ∨
      ∃ s', s.eventReadNode c input false = some (true, s') ∧
        s'.kernel = (s.received c input).kernel ∧ s'.rqueue = s.rqueue := by
  unfold recvlen at returned
  have nonzero : ¬(count : Int) = 0 := by omega
  have counted : (count : Int) > 0 := by omega
  unfold eventReadNode eventReadRecv
  simp only [returned, nonzero, counted, if_true, if_false]
  cases input.itemGranted with
  | false => exact .inr ⟨_, rfl, rfl, rfl⟩
  | true =>
    simp only [if_true, rqueuePushNode, Bool.false_eq_true, if_false]
    cases empty : s.rqueue.isEmpty with
    | false => exact .inl rfl
    | true => exact .inr ⟨_, rfl, rfl, rfl⟩

/-- Bytes that were counted and have no node are lost. -/
theorem not_carefulEnd_refused {count : Nat} {bytes : List UInt8}
    (returned : s.recvlen c input = some (count : Int)) (positive : 0 < count) (some' : bytes ≠ [])
    (received : receivedOn (s.conns c).fd (s.received c input).kernel.trace =
      receivedOn (s.conns c).fd s.kernel.trace ++ bytes)
    (isOpen : ((s.received c input).kernel.sock (s.conns c).fd).isSome = true) :
    ¬s.CarefulEnd c (s.eventReadNode c input false) := by
  rcases eventReadNode_refused returned positive with fault | ⟨s', ended, kernel, queue⟩
  · rw [fault]
    exact id
  · rw [ended]
    rw [← kernel] at received isOpen
    exact not_careful queue some' received isOpen

/-- A call of `event_read` that returns loses nothing exactly if the deciding results are harmless,
with the three allocations that follow them. -/
theorem eventReadNode_careful_iff (s : Server) (c : ConnPtr) (input : ReadInput)
    (nodeGranted : Bool) (returned : (s.eventRead c input).1 = true) :
    s.CarefulEnd c (s.eventReadNode c input nodeGranted) ↔
      Harmless (s.conns c).fd input nodeGranted
        (deciding (readResults (s.conns c).fd recvbufferSize input.script s.kernel)) := by
  cases nodeGranted with
  | true =>
    rw [eventReadNode_granted]
    exact s.eventRead_careful_iff c input returned
  | false =>
    have size : 0 < recvbufferSize := by decide
    obtain ⟨recvlen, value⟩ := recvlen_of_returned returned
    have isOpen : ((s.received c input).kernel.sock (s.conns c).fd).isSome = true :=
      readLoop_open value
    have whole := s.eventRead_careful_iff c input returned
    cases readLoop_met size value with
    | blocked head received =>
      rw [eventReadNode_unpushed value (by decide)]
      exact iff_of_true (whole.mpr (.inl head)) (.inl head)
    | ended head received =>
      rw [eventReadNode_unpushed value (le_refl 0)]
      exact iff_of_true (whole.mpr (.inr (.inl head))) (.inr (.inl head))
    | short got head some' short ptr received =>
      rw [harmless_short head some' short]
      have nonempty : got ≠ [] := List.ne_nil_of_length_pos some'
      exact iff_of_false (not_carefulEnd_refused value some' nonempty received isOpen)
        fun granted => Bool.false_ne_true granted.2.2
    | full second rest bytes ret results some' received next =>
      rw [results, harmless_full] at whole ⊢
      by_cases nothing : recvlen ≤ 0
      · rw [eventReadNode_unpushed value nothing]
        exact whole
      · obtain ⟨count, rfl⟩ := Int.eq_ofNat_of_zero_le (le_of_not_ge nothing)
        have positive : 0 < count := by omega
        refine iff_of_false (not_carefulEnd_refused value positive some' received isOpen) ?_
        -- the end of the stream would have been returned as zero
        rintro ⟨rfl, _⟩
        have zero : some 0 = some (count : Int) := next
        have same := Option.some.inj zero
        omega

end Server

/-! ## The data path -/

/-- A `ServerSend` keeps what it should exactly if it gets a buffer, does nothing, or finds the
object as it leaves it; an `event_read` that returns loses nothing exactly if what it read is
harmless with the three allocations that follow. -/
theorem dataPath_careful_iff (s : Server) (c : ConnPtr) :
    (∀ (data : Option Memory) (len : Int) (granted : Bool), len < 2 ^ 31 →
      (s.SendKeeps c data len granted ↔ data.isSome = true ∧ granted = true ∨
        len ≤ 0 ∨ (s.conns c).activity ≠ .connected ∨ s.Stalled c len)) ∧
    ∀ (input : Server.ReadInput) (nodeGranted : Bool), (s.eventRead c input).1 = true →
      (s.CarefulEnd c (s.eventReadNode c input nodeGranted) ↔
        Server.Harmless (s.conns c).fd input nodeGranted (deciding
          (readResults (s.conns c).fd Server.recvbufferSize input.script s.kernel))) :=
  ⟨fun data _ granted isInt => s.sendKeeps_iff c data isInt granted,
    s.eventReadNode_careful_iff c⟩

/-- Three bytes are sent, and three bytes are read, with every allocation granted. -/
theorem dataPath_careful_three :
    (Sample.readable []).SendKeeps 1 (some fun _ => 65) 3 true ∧
    (Sample.readable [1, 2, 3]).CarefulEnd 1
      ((Sample.readable [1, 2, 3]).eventReadNode 1 (Sample.reading [⟨[], .ok 100⟩]) true) := by
  constructor
  · have sends := (dataPath_careful_iff (Sample.readable []) 1).1
    exact (sends _ 3 true (by decide)).mpr (.inl ⟨rfl, rfl⟩)
  · have three : (deciding (readResults 4 Server.recvbufferSize
        (Sample.reading [⟨[], .ok 100⟩]).script (Sample.readable [1, 2, 3]).kernel)).head? =
          some (.ok 3) := by decide
    have reads := (dataPath_careful_iff (Sample.readable [1, 2, 3]) 1).2
    refine (reads (Sample.reading [⟨[], .ok 100⟩]) true rfl).mpr ?_
    exact .inr (.inr (.inl ⟨3, three, by decide, by decide, rfl, rfl, rfl⟩))

/-- Without its buffer a `ServerSend` of three bytes sets the length, and without its item, or
without the item's node, an `event_read` of three bytes loses them. -/
theorem dataPath_careless :
    (¬∀ (s : Server) (c : ConnPtr) (data : Option Memory) (len : Int) (granted : Bool),
      len < 2 ^ 31 → s.SendKeeps c data len granted) ∧
    (¬∀ (s : Server) (c : ConnPtr) (input : Server.ReadInput), (s.eventRead c input).1 = true →
      s.CarefulEnd c (s.eventReadNode c input true)) ∧
    ¬∀ (s : Server) (c : ConnPtr) (input : Server.ReadInput), (s.eventRead c input).1 = true →
      input.strGranted = true → input.itemGranted = true →
      s.CarefulEnd c (s.eventReadNode c input false) := by
  have lost : ∀ s : Server, (Sample.readable [1, 2, 3]).Careful 1 s →
      s.rqueue = (Sample.readable [1, 2, 3]).rqueue →
      receivedOn 4 s.kernel.trace = [1, 2, 3] → (s.kernel.sock 4).isSome = true → False :=
    fun s careful queue received isOpen =>
      Server.not_careful queue (List.cons_ne_nil 1 [2, 3]) received isOpen careful
  refine ⟨fun always => ?_, fun always => ?_, fun always => ?_⟩
  · have keeps := always (Sample.readable []) 1 (some fun _ => 65) 3 false (by decide)
    have length := (keeps rfl).2.1
    exact absurd length (by decide)
  · let input := { Sample.reading [⟨[], .ok 100⟩] with itemGranted := false }
    have careful : (Sample.readable [1, 2, 3]).Careful 1
        ((Sample.readable [1, 2, 3]).eventRead 1 input).2 :=
      always (Sample.readable [1, 2, 3]) 1 input rfl
    exact lost _ careful rfl rfl rfl
  · let input := Sample.reading [⟨[], .ok 100⟩]
    have careful : (Sample.readable [1, 2, 3]).Careful 1
        ((Sample.readable [1, 2, 3]).eventReadRecv 1 input).2.rqueuePost :=
      always (Sample.readable [1, 2, 3]) 1 input rfl rfl rfl
    exact lost _ careful rfl rfl rfl

end EpollNet
