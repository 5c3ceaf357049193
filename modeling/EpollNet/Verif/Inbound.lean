import EpollNet.Verif.Orderly

/-!
# What one `event_read` delivers

`readData` issues every `read` with the same pointer and length and asks again exactly when a
read filled the buffer. If the first read that is neither interrupted nor failing does not fill
it, the call delivers the bytes it consumed. If it does, the call loses bytes however it goes
on: a would-block or the end of the stream discards them, and more bytes overwrite the buffer
and make `CStr_Malloc` copy past its end.
-/

namespace EpollNet

/-! ## Bytes received -/

/-- The bytes a call returned from a descriptor. -/
def Call.gotOn (fd : Fd) : Call → List UInt8
  | .read x got => if x = fd then got else []
  | _ => []

/-- The bytes returned from a descriptor so far, in order. -/
def receivedOn (fd : Fd) (trace : List Call) : List UInt8 :=
  trace.reverse.flatMap (Call.gotOn fd)

/-- A later call's bytes come last. -/
theorem receivedOn_cons (fd : Fd) (call : Call) (trace : List Call) :
    receivedOn fd (call :: trace) = receivedOn fd trace ++ call.gotOn fd := by
  simp [receivedOn]

/-- The first read that is neither interrupted nor failing returns as many bytes as the buffer
holds: the kernel is willing to, and they are there. -/
def fullRead (fd : Fd) (len : Nat) : List ReadAnswer → Kernel → Bool
  | [], _ => false
  | answer :: rest, k =>
    match answer.result, (k.arriveAll answer.arrivals).sock fd with
    | .ok n, some s => len ≤ min n s.rx.length
    | .error .eagain, some _ => false
    | _, _ => fullRead fd len rest ((k.arriveAll answer.arrivals).log (.read fd []))

namespace Server

/-- The call of `event_read` from `s` to `s'` delivered exactly what it consumed: the bytes it
received on the connection's descriptor are those of the one item it pushed, or there were none
and no item; and `readData` returned no more than the buffer's length. -/
def Exact (s : Server) (c : ConnPtr) (input : ReadInput) (s' : Server) : Prop :=
  ∃ bytes, receivedOn (s.conns c).fd s'.kernel.trace =
      receivedOn (s.conns c).fd s.kernel.trace ++ bytes ∧
    (bytes = [] → s'.rqueue = s.rqueue) ∧
    (bytes ≠ [] → ∃ item b, s'.rqueue = s.rqueue ++ [item] ∧ item.connobj = c ∧
      item.recvptr = some b ∧ item.recvlen = bytes.length ∧
      b.str.buf.take item.recvlen = bytes) ∧
    ∀ recvlen, s.recvlen c input = some recvlen → recvlen ≤ recvbufferSize

end Server

/-! ## Rounds of the receiving loop -/

/-- Arrivals are no calls. -/
theorem arriveAll_trace (k : Kernel) (arrivals : List Kernel.Arrival) :
    (k.arriveAll arrivals).trace = k.trace := by
  induction arrivals generalizing k with
  | nil => rfl
  | cons a rest ih =>
    rw [Kernel.arriveAll, List.foldl_cons]
    exact (ih _).trans (k.arrive_trace a)

/-- What one round of the loop meets: it goes round again with nothing received, it would block,
or it receives some of the bytes that are there. -/
inductive Round (fd : Fd) (len : Nat) (answer : ReadAnswer) (k : Kernel) : Prop
  /-- The read was interrupted or failed. -/
  | again :
      (∀ rest nLen ptr, readLoop fd len (answer :: rest) nLen ptr k =
        readLoop fd len rest nLen ptr ((k.arriveAll answer.arrivals).log (.read fd []))) →
      (∀ rest, fullRead fd len (answer :: rest) k =
        fullRead fd len rest ((k.arriveAll answer.arrivals).log (.read fd []))) →
      Round fd len answer k
  /-- The read would block. -/
  | blocked :
      (∀ rest nLen ptr, readLoop fd len (answer :: rest) nLen ptr k =
        ⟨some (-2), ptr, (k.arriveAll answer.arrivals).log (.read fd [])⟩) →
      (∀ rest, fullRead fd len (answer :: rest) k = false) →
      Round fd len answer k
  /-- The read returned bytes, or none at the end of the stream. -/
  | got (got : List UInt8) (k' : Kernel) : got.length ≤ len →
      k'.trace = .read fd got :: k.trace →
      (∀ rest nLen ptr, readLoop fd len (answer :: rest) nLen ptr k =
        if got.length > 0 then
          if nLen + got.length = len then
            readLoop fd len rest (nLen + got.length) (ptr.store got) k'
          else ⟨some (nLen + got.length : Nat), ptr.store got, k'⟩
        else ⟨some 0, ptr, k'⟩) →
      (∀ rest, fullRead fd len (answer :: rest) k = decide (len ≤ got.length)) →
      Round fd len answer k

/-- Every round is one of the three. -/
theorem round (fd : Fd) (len : Nat) (answer : ReadAnswer) (k : Kernel) : Round fd len answer k := by
  obtain ⟨arrivals, result⟩ := answer
  cases isOpen : (k.arriveAll arrivals).sock fd with
  | none =>
    refine .again (fun rest nLen ptr => ?_) fun rest => ?_
    · simp only [readLoop, Kernel.read, isOpen]
    · cases result with
      | ok n => simp only [fullRead, isOpen]
      | error e => cases e <;> simp only [fullRead, isOpen]
  | some s =>
    cases result with
    | ok n =>
      refine .got (s.rx.take (min n len)) ((k.arriveAll arrivals).read fd len (.ok n)).2
        (by simp) ?_ (fun rest nLen ptr => ?_) fun rest => ?_
      · simp only [Kernel.read, isOpen, Kernel.log_trace, arriveAll_trace]
      · simp only [readLoop, Kernel.read, isOpen]
      · simp only [fullRead, isOpen, List.length_take]
        congr 1
        simp only [eq_iff_iff]
        omega
    | error e =>
      cases e with
      | eintr =>
        refine .again (fun rest nLen ptr => ?_) fun rest => ?_
        · simp only [readLoop, Kernel.read, isOpen]
        · simp only [fullRead]
      | eagain =>
        refine .blocked (fun rest nLen ptr => ?_) fun rest => ?_
        · simp only [readLoop, Kernel.read, isOpen]
        · simp only [fullRead, isOpen]
      | other =>
        refine .again (fun rest nLen ptr => ?_) fun rest => ?_
        · simp only [readLoop, Kernel.read, isOpen]
        · simp only [fullRead]

/-- A read that returned nothing leaves the bytes received. -/
theorem receivedOn_again (fd : Fd) (k : Kernel) (arrivals : List Kernel.Arrival) :
    receivedOn fd ((k.arriveAll arrivals).log (.read fd [])).trace = receivedOn fd k.trace := by
  rw [Kernel.log_trace, arriveAll_trace, receivedOn_cons]
  simp [Call.gotOn]

/-- A read's bytes are received. -/
theorem receivedOn_got {fd : Fd} {k k' : Kernel} {got : List UInt8}
    (trace : k'.trace = .read fd got :: k.trace) :
    receivedOn fd k'.trace = receivedOn fd k.trace ++ got := by
  rw [trace, receivedOn_cons]
  simp [Call.gotOn]

/-! ## The whole loop -/

section Loop

variable {fd : Fd} {len : Nat} {script : List ReadAnswer} {ptr : Memory} {k : Kernel} {ret : Int}

/-- A loop whose first deciding read does not fill the buffer ends with it: with nothing
received and no positive count, or with its bytes, fewer than the buffer holds, in the buffer. -/
theorem readLoop_short (short : fullRead fd len script k = false)
    (returned : (readLoop fd len script 0 ptr k).ret = some ret) :
    (ret ≤ 0 ∧ receivedOn fd (readLoop fd len script 0 ptr k).kernel.trace =
      receivedOn fd k.trace) ∨
    ∃ got : List UInt8, 0 < got.length ∧ got.length < len ∧ ret = got.length ∧
      (readLoop fd len script 0 ptr k).ptr = ptr.store got ∧
      receivedOn fd (readLoop fd len script 0 ptr k).kernel.trace =
        receivedOn fd k.trace ++ got := by
  induction script generalizing k with
  | nil => simp [readLoop] at returned
  | cons answer rest ih =>
    cases round fd len answer k with
    | again looped full =>
      rw [looped] at returned ⊢
      rw [full] at short
      have later := ih short returned
      rwa [receivedOn_again] at later
    | blocked looped _ =>
      rw [looped] at returned ⊢
      refine .inl ⟨?_, receivedOn_again fd k _⟩
      have value : (-2 : Int) = ret := Option.some.inj returned
      omega
    | got got k' bound trace looped full =>
      rw [full, decide_eq_false_iff_not, not_le] at short
      rw [looped] at returned ⊢
      have bytes := receivedOn_got trace
      by_cases some' : got.length > 0
      · have open' : ¬0 + got.length = len := by omega
        rw [if_pos some', if_neg open'] at returned ⊢
        refine .inr ⟨got, some', short, ?_, rfl, bytes⟩
        have value := Option.some.inj returned
        omega
      · rw [if_neg some'] at returned ⊢
        have empty : got = [] := List.eq_nil_of_length_eq_zero (by omega)
        have value : (0 : Int) = ret := Option.some.inj returned
        refine .inl ⟨by omega, ?_⟩
        rw [bytes, empty, List.append_nil]

/-- After a full buffer the loop returns no positive count, or more than the buffer holds. -/
theorem readLoop_full_tail
    (returned : (readLoop fd len script len ptr k).ret = some ret) :
    (∃ bytes, receivedOn fd (readLoop fd len script len ptr k).kernel.trace =
      receivedOn fd k.trace ++ bytes) ∧ (ret ≤ 0 ∨ len < ret) := by
  induction script generalizing k ptr with
  | nil => simp [readLoop] at returned
  | cons answer rest ih =>
    cases round fd len answer k with
    | again looped _ =>
      rw [looped] at returned ⊢
      have later := ih returned
      rwa [receivedOn_again] at later
    | blocked looped _ =>
      rw [looped] at returned ⊢
      have value : (-2 : Int) = ret := Option.some.inj returned
      exact ⟨⟨[], by rw [receivedOn_again, List.append_nil]⟩, .inl (by omega)⟩
    | got got k' bound trace looped _ =>
      rw [looped] at returned ⊢
      have bytes := receivedOn_got trace
      by_cases some' : got.length > 0
      · have open' : ¬len + got.length = len := by omega
        rw [if_pos some', if_neg open'] at returned ⊢
        have value := Option.some.inj returned
        exact ⟨⟨got, bytes⟩, .inr (by omega)⟩
      · rw [if_neg some'] at returned ⊢
        have value : (0 : Int) = ret := Option.some.inj returned
        exact ⟨⟨got, bytes⟩, .inl (by omega)⟩

/-- A loop whose first deciding read fills the buffer has received bytes, and returns no
positive count or more than the buffer holds. -/
theorem readLoop_full (positive : 0 < len) (full : fullRead fd len script k = true)
    (returned : (readLoop fd len script 0 ptr k).ret = some ret) :
    (∃ bytes, bytes ≠ [] ∧ receivedOn fd (readLoop fd len script 0 ptr k).kernel.trace =
      receivedOn fd k.trace ++ bytes) ∧ (ret ≤ 0 ∨ len < ret) := by
  induction script generalizing k with
  | nil => simp [readLoop] at returned
  | cons answer rest ih =>
    cases round fd len answer k with
    | again looped fullAgain =>
      rw [looped] at returned ⊢
      rw [fullAgain] at full
      have later := ih full returned
      rwa [receivedOn_again] at later
    | blocked _ fullAgain =>
      rw [fullAgain] at full
      contradiction
    | got got k' bound trace looped fullAgain =>
      rw [fullAgain, decide_eq_true_eq] at full
      rw [looped] at returned ⊢
      have exact' : 0 + got.length = len := by omega
      have nonempty : got.length > 0 := by omega
      rw [if_pos nonempty, if_pos exact', exact'] at returned ⊢
      obtain ⟨⟨more, later⟩, value⟩ := readLoop_full_tail returned
      refine ⟨⟨got ++ more, ?_, ?_⟩, value⟩
      · exact List.append_ne_nil_of_left_ne_nil (List.ne_nil_of_length_pos nonempty) more
      · rw [later, receivedOn_got trace, List.append_assoc]

end Loop

/-! ## The handler -/

/-- The end of a connection receives nothing and queues nothing. -/
theorem hangUp_quiet (s : Server) (c : ConnPtr) (fd : Fd) :
    receivedOn fd (s.hangUp c).kernel.trace = receivedOn fd s.kernel.trace ∧
      (s.hangUp c).rqueue = s.rqueue := by
  have deleted : receivedOn fd (s.kernel.ctlDel (s.conns c).fd).2.trace =
      receivedOn fd s.kernel.trace := by
    unfold Kernel.ctlDel
    split
    · simp only [Kernel.log_trace, receivedOn_cons, Call.gotOn, List.append_nil]
    · simp only [Kernel.log_trace, receivedOn_cons, Call.gotOn, List.append_nil]
  by_cases positive : (s.conns c).fd > 0
  · refine ⟨?_, ?_⟩
    · simp only [Server.hangUp, Server.setConn, Server.closeConnObj, Server.epollEventDelConn,
        positive, if_true, Kernel.close, Kernel.log_trace, receivedOn_cons, Call.gotOn,
        List.append_nil]
      exact deleted
    · simp [Server.hangUp, Server.setConn, Server.closeConnObj, Server.epollEventDelConn, positive]
  · simp only [Server.hangUp, Server.setConn, Server.closeConnObj, Server.epollEventDelConn,
      positive, if_false]
    exact ⟨deleted, trivial⟩

/-- The bytes copied out of a buffer that begins with them. -/
theorem copy_store (ptr : Memory) (got : List UInt8) : (ptr.store got).copy got.length = got := by
  apply List.ext_getElem
  · simp [Memory.copy]
  · intro i left right
    simp [Memory.copy, Memory.store, right]

variable {s : Server} {c : ConnPtr} {input : Server.ReadInput} {recvlen : Int}

/-- An `event_read` that received nothing it counts pushes no item. -/
theorem eventRead_none (returned : s.recvlen c input = some recvlen) (count : recvlen ≤ 0) :
    receivedOn (s.conns c).fd (s.eventRead c input).2.kernel.trace =
        receivedOn (s.conns c).fd (s.received c input).kernel.trace ∧
      (s.eventRead c input).2.rqueue = s.rqueue := by
  unfold Server.recvlen at returned
  unfold Server.eventRead Server.eventReadRecv
  simp only [returned]
  by_cases zero : recvlen = 0
  · simp only [zero, if_true]
    exact hangUp_quiet (s.received c input) c _
  · have negative : ¬recvlen > 0 := by omega
    simp only [zero, negative, if_false]
    exact ⟨rfl, trivial⟩

/-- `event_read` after some bytes with both allocations granted: the copy and the item are the two
blocks allocated. -/
theorem Server.eventRead_granted {count : Nat} (returned : s.recvlen c input = some (count : Int))
    (positive : 0 < count) (small : count < 2 ^ 64) (str : input.strGranted = true)
    (granted : input.itemGranted = true) :
    ∃ client, (s.eventRead c input).2 = { s.received c input with
      rqueue := s.rqueue ++ [⟨s.heap.next + 1, c,
        some ⟨s.heap.next, ⟨count, 0, ((readData (s.conns c) (Server.recvbuffer input.beyond)
          Server.recvbufferSize input.script s.kernel).ptr.copy count) ++ [0]⟩⟩, count, client⟩]
      sem := lockerPost s.sem
      heap := { s.heap with next := s.heap.next + 2 } } := by
  unfold Server.recvlen at returned
  unfold Server.eventRead Server.eventReadRecv
  have nonzero : ¬(count : Int) = 0 := by omega
  have counted : (count : Int) > 0 := by omega
  have size : ((count : Int) % 2 ^ 64).toNat = count := by omega
  simp only [returned, nonzero, counted, if_true, if_false, granted, cStrMalloc, cStrCreate, size,
    str, positive]
  exact ⟨_, rfl⟩

/-- An `event_read` that counted bytes pushes one item with that many bytes of its buffer. -/
theorem eventRead_item {count : Nat} (returned : s.recvlen c input = some (count : Int))
    (positive : 0 < count) (small : count < 2 ^ 64) (str : input.strGranted = true)
    (granted : input.itemGranted = true) :
    (s.eventRead c input).2.kernel = (s.received c input).kernel ∧
      ∃ item b, (s.eventRead c input).2.rqueue = s.rqueue ++ [item] ∧ item.connobj = c ∧
        item.recvptr = some b ∧ item.recvlen = count ∧
        b.str.buf.take count = ((readData (s.conns c) (Server.recvbuffer input.beyond)
          Server.recvbufferSize input.script s.kernel).ptr.copy count) := by
  obtain ⟨client, after⟩ := s.eventRead_granted returned positive small str granted
  rw [after]
  refine ⟨rfl, _, _, rfl, rfl, rfl, rfl, ?_⟩
  rw [List.take_append_of_le_length (by simp [Memory.copy]), List.take_of_length_le]
  simp [Memory.copy]

/-- A call that returns has a value for the received length. -/
theorem recvlen_of_returned (returned : (s.eventRead c input).1 = true) :
    ∃ recvlen, s.recvlen c input = some recvlen := by
  cases found : s.recvlen c input with
  | none =>
    unfold Server.recvlen at found
    simp [Server.eventRead, Server.eventReadRecv, found] at returned
  | some recvlen => exact ⟨recvlen, rfl⟩

/-- A call whose first deciding read fills the buffer loses bytes or overruns the buffer. -/
theorem not_exact_of_full (returned : (s.eventRead c input).1 = true)
    (full : fullRead (s.conns c).fd Server.recvbufferSize input.script s.kernel = true) :
    ¬s.Exact c input (s.eventRead c input).2 := by
  rintro ⟨bytes, received, _, queued, bound⟩
  obtain ⟨recvlen, value⟩ := recvlen_of_returned returned
  have loop : (readLoop (s.conns c).fd Server.recvbufferSize input.script 0
      (Server.recvbuffer input.beyond) s.kernel).ret = some recvlen := value
  obtain ⟨⟨lost, nonempty, consumed⟩, outcome⟩ := readLoop_full (by decide) full loop
  rcases outcome with nothing | overrun
  · -- the bytes were consumed and no item was pushed
    obtain ⟨same, queue⟩ := eventRead_none value nothing
    have after := same.trans consumed
    rw [received] at after
    have equal : bytes = lost := List.append_cancel_left after
    obtain ⟨item, b, pushed, _⟩ := queued (equal ▸ nonempty)
    rw [queue] at pushed
    simpa using congrArg List.length pushed
  · have most := bound recvlen value
    omega

/-- A call of `event_read` that returns delivers exactly what it consumed if and only if its
first read that is neither interrupted nor failing does not fill the buffer. -/
theorem eventRead_exact_iff (s : Server) (c : ConnPtr) (input : Server.ReadInput)
    (returned : (s.eventRead c input).1 = true) (str : input.strGranted = true)
    (granted : input.itemGranted = true) :
    s.Exact c input (s.eventRead c input).2 ↔
      fullRead (s.conns c).fd Server.recvbufferSize input.script s.kernel = false := by
  obtain ⟨recvlen, value⟩ := recvlen_of_returned returned
  have size : Server.recvbufferSize = 16384 := rfl
  constructor
  · intro exact'
    by_contra full
    exact not_exact_of_full returned (Bool.not_eq_false _ ▸ full) exact'
  · intro short
    rcases readLoop_short short value with
      ⟨nothing, consumed⟩ | ⟨got, some', few, count, ptr, consumed⟩
    · obtain ⟨same, queue⟩ := eventRead_none value nothing
      refine ⟨[], ?_, fun _ => queue, fun nonempty => absurd rfl nonempty, ?_⟩
      · rw [List.append_nil]
        exact same.trans consumed
      · intro most found
        have equal := Option.some.inj (value.symm.trans found)
        omega
    · subst count
      obtain ⟨kernel, item, b, queue, conn, buffer, length, contents⟩ :=
        eventRead_item value some' (by omega) str granted
      refine ⟨got, ?_, ?_, fun _ => ⟨item, b, queue, conn, buffer, length, ?_⟩, ?_⟩
      · rw [kernel]
        exact consumed
      · rintro rfl
        exact absurd some' (lt_irrefl 0)
      · have copied : (readData (s.conns c) (Server.recvbuffer input.beyond) Server.recvbufferSize
            input.script s.kernel).ptr = (Server.recvbuffer input.beyond).store got := ptr
        rw [length, contents, copied]
        exact copy_store _ got
      · intro most found
        have equal := Option.some.inj (value.symm.trans found)
        omega

namespace Sample

/-- A connection on descriptor 4 with the given bytes waiting. -/
def readable (bytes : List UInt8) : Server :=
  { Server.serverCreate (fun _ => ⟨0, .connclosed, none, 0⟩) (fun _ => ⟨0, 0⟩) with
    kernel := { Kernel.initial with
      sock := Function.update Kernel.initial.sock 4 (some ⟨bytes, false, 1⟩) }
    conns := fun _ => ⟨4, .connected, none, 0⟩ }

end Sample

/-- Three bytes read in one piece are delivered. -/
theorem eventRead_exact_three :
    (Sample.readable [1, 2, 3]).Exact 1 (Sample.reading [⟨[], .ok 100⟩])
      ((Sample.readable [1, 2, 3]).eventRead 1 (Sample.reading [⟨[], .ok 100⟩])).2 :=
  (eventRead_exact_iff (Sample.readable [1, 2, 3]) 1 (Sample.reading [⟨[], .ok 100⟩])
    (by decide) rfl rfl).mpr (by decide)

/-- A read that fills the buffer is followed by one that would block: the call returns, its
allocations would have succeeded, and the bytes are in no item. -/
theorem eventRead_inexact : ¬∀ (s : Server) (c : ConnPtr) (input : Server.ReadInput),
    (s.eventRead c input).1 = true → input.strGranted = true → input.itemGranted = true →
      s.Exact c input (s.eventRead c input).2 := by
  intro always
  -- kept apart from its bytes, which the kernel would otherwise go through one by one
  obtain ⟨bytes, length⟩ : ∃ bytes : List UInt8, bytes.length = Server.recvbufferSize :=
    ⟨List.replicate Server.recvbufferSize 65, List.length_replicate⟩
  have whole : bytes.take Server.recvbufferSize = bytes := List.take_of_length_le length.le
  have positive : 0 < Server.recvbufferSize := by decide
  have full : fullRead 4 Server.recvbufferSize
      [⟨[], .ok Server.recvbufferSize⟩, ⟨[], .error .eagain⟩]
      (Sample.readable bytes).kernel = true := by
    simp [fullRead, Kernel.arriveAll, Sample.readable, length]
  have returned : ((Sample.readable bytes).eventRead 1
      (Sample.reading [⟨[], .ok Server.recvbufferSize⟩, ⟨[], .error .eagain⟩])).1 = true := by
    simp [Server.eventRead, Server.eventReadRecv, readData, readLoop, Kernel.arriveAll, Kernel.read,
      Sample.readable, Sample.reading, positive, whole, length]
  exact not_exact_of_full returned full (always _ _ _ returned rfl rfl)

end EpollNet
