import EpollNet.Net.Streams
import EpollNet.Verif.Inbound
import EpollNet.Verif.Items

/-!
# Bytes that arrive

Where the bytes that arrive on sockets go, step by step. `Moved` compares the kernel's sockets
before and after: what arrived lies behind what a socket held, and what was read is gone from its
front. `StreamStep` says of every step of the server whether bytes only arrive, a client comes, a
chunk is read or a chunk is handed over, with the events the step shows.
-/

namespace EpollNet

open EpollNet.Basis

/-! ## The kernel's side -/

namespace Kernel

/-- Open sockets come from different accepts, which have been counted. -/
structure Numbered (k : Kernel) : Prop where
  /-- No two are of one client. -/
  apart : ∀ fd fd' s s', k.sock fd = some s → k.sock fd' = some s' → s.client = s'.client → fd = fd'
  /-- Their accepts have been counted. -/
  counted : ∀ fd s, k.sock fd = some s → s.client ≤ k.accepted

/-- Between two kernels some bytes arrived, `got` were read from a descriptor, and sockets were
closed, but none opened. -/
structure Moved (k k' : Kernel) (fd : Fd) (got : List UInt8) (events : List StreamEvent) :
    Prop where
  /-- Nothing was accepted. -/
  accepted : k'.accepted = k.accepted
  /-- What arrived for a socket lies behind what it held, and what was read is gone from its
  front. -/
  sock : ∀ x s', k'.sock x = some s' → ∃ s, k.sock x = some s ∧ s'.client = s.client ∧
    (if x = fd then got else []) ++ s'.rx = s.rx ++ puts s.client events
  /-- Nothing arrives for clients still to come. -/
  later : ∀ client, k.accepted < client → puts client events = []
  /-- Bytes only arrive. -/
  only : Puts events

variable {k k' k'' : Kernel} {fd : Fd} {got : List UInt8} {events events' : List StreamEvent}

/-- Nothing happened but that sockets were closed. -/
theorem Moved.of_kept (accepted : k'.accepted = k.accepted)
    (kept : ∀ x s, k'.sock x = some s → k.sock x = some s) : k.Moved k' fd [] [] := by
  refine ⟨accepted, fun x s found => ⟨s, kept x s found, rfl, ?_⟩, fun _ _ => rfl,
    fun _ member => (List.not_mem_nil member).elim⟩
  rw [ite_self, List.nil_append]
  exact (List.append_nil _).symm

/-- One after the other. -/
theorem Moved.trans (first : k.Moved k' fd [] events) (second : k'.Moved k'' fd got events') :
    k.Moved k'' fd got (events ++ events') := by
  refine ⟨second.accepted.trans first.accepted, fun x s'' found => ?_, fun client more => ?_,
    first.only.append second.only⟩
  · obtain ⟨s', found', client', bytes'⟩ := second.sock x s'' found
    obtain ⟨s, there, client, bytes⟩ := first.sock x s' found'
    refine ⟨s, there, client'.trans client, ?_⟩
    rw [ite_self, List.nil_append] at bytes
    rw [bytes', bytes, client, puts_append, List.append_assoc]
  · rw [puts_append, first.later client more, second.later client (first.accepted.symm ▸ more)]
    rfl

/-- The sockets that are left come from different accepts. -/
theorem Moved.numbered (moved : k.Moved k' fd got events) (numbered : k.Numbered) :
    k'.Numbered := by
  constructor
  · intro x y s s' here there same
    obtain ⟨old, found, client, _⟩ := moved.sock x s here
    obtain ⟨old', found', client', _⟩ := moved.sock y s' there
    exact numbered.apart x y old old' found found' (client.symm.trans (same.trans client'))
  · intro x s here
    obtain ⟨old, found, client, _⟩ := moved.sock x s here
    rw [client, moved.accepted]
    exact numbered.counted x old found

/-- One arrival. -/
theorem moved_arrive (numbered : k.Numbered) (a : Arrival) :
    k.Moved (k.arrive a) fd [] (k.heard a) := by
  unfold arrive heard
  cases isOpen : k.sock a.fd with
  | none => exact .of_kept rfl fun _ _ found => found
  | some s =>
    by_cases ended : s.fin = true
    · simp only [ended, if_true]
      exact .of_kept rfl fun _ _ found => found
    · simp only [ended, Bool.false_eq_true, if_false]
      refine ⟨rfl, fun x s' found => ?_, fun client more => ?_, fun event member => ?_⟩
      · dsimp only at found
        rw [ite_self, List.nil_append]
        by_cases same : x = a.fd
        · subst same
          rw [Function.update_self] at found
          obtain rfl := Option.some.inj found
          exact ⟨s, isOpen, rfl, by simp [puts]⟩
        · rw [Function.update_of_ne same] at found
          have other : s.client ≠ s'.client := fun equal =>
            same (numbered.apart a.fd x s s' isOpen found equal).symm
          exact ⟨s', found, rfl, by simp [puts, other]⟩
      · have counted := numbered.counted a.fd s isOpen
        have other : s.client ≠ client := by omega
        simp [puts, other]
      · exact ⟨_, _, List.mem_singleton.mp member⟩

/-- Several arrivals. -/
theorem moved_arriveAll (numbered : k.Numbered) (arrivals : List Arrival) :
    k.Moved (k.arriveAll arrivals) fd [] (k.heardAll arrivals) := by
  induction arrivals generalizing k with
  | nil => exact .of_kept rfl fun _ _ found => found
  | cons a rest ih =>
    have first : k.Moved (k.arrive a) fd [] (k.heard a) := moved_arrive numbered a
    exact first.trans (ih (first.numbered numbered))

/-- One read. -/
theorem moved_read (k : Kernel) (fd : Fd) (len : Nat) (answer : Except Errno Nat) :
    k.Moved (k.read fd len answer).2 fd ((k.read fd len answer).1.toOption.getD []) [] := by
  unfold read
  cases isOpen : k.sock fd with
  | none => exact .of_kept rfl fun _ _ found => found
  | some s =>
    cases answer with
    | error e => exact .of_kept rfl fun _ _ found => found
    | ok n =>
      refine ⟨rfl, fun x s' found => ?_, fun _ _ => rfl,
        fun _ member => (List.not_mem_nil member).elim⟩
      by_cases same : x = fd
      · subst same
        simp only [Function.update_self] at found
        obtain rfl := Option.some.inj found
        refine ⟨s, isOpen, rfl, ?_⟩
        simp [puts, Except.toOption]
      · simp only [Function.update_of_ne same] at found
        exact ⟨s', found, rfl, by simp [puts, same]⟩

end Kernel

/-! ## The receiving loop -/

/-- A loop whose first deciding read does not fill the buffer reads some bytes, leaves them at the
start of the buffer and returns their number; or it reads none and returns no positive count. -/
theorem readLoop_moved {fd : Fd} {len : Nat} {script : List ReadAnswer} {k : Kernel}
    (numbered : k.Numbered) (ptr : Memory) (short : fullRead fd len script k = false) :
    ∃ got, k.Moved (readLoop fd len script 0 ptr k).kernel fd got (readHeard fd len script 0 k) ∧
      ((got = [] ∧ ∀ ret, (readLoop fd len script 0 ptr k).ret = some ret → ret ≤ 0) ∨
        0 < got.length ∧ got.length < len ∧
          (readLoop fd len script 0 ptr k).ret = some (got.length : Int) ∧
          (readLoop fd len script 0 ptr k).ptr = ptr.store got) := by
  induction script generalizing k with
  | nil => exact ⟨[], .of_kept rfl fun _ _ found => found, .inl ⟨rfl, nofun⟩⟩
  | cons answer rest ih =>
    have arrived : k.Moved (k.arriveAll answer.arrivals) fd [] (k.heardAll answer.arrivals) :=
      Kernel.moved_arriveAll numbered answer.arrivals
    -- A read that was interrupted or failed leaves the loop where it was.
    have again : ∀ k', (k.arriveAll answer.arrivals).Moved k' fd [] [] →
        fullRead fd len (answer :: rest) k = fullRead fd len rest k' →
        readLoop fd len (answer :: rest) 0 ptr k = readLoop fd len rest 0 ptr k' →
        readHeard fd len (answer :: rest) 0 k =
          k.heardAll answer.arrivals ++ readHeard fd len rest 0 k' →
        ∃ got, k.Moved (readLoop fd len (answer :: rest) 0 ptr k).kernel fd got
            (readHeard fd len (answer :: rest) 0 k) ∧
          ((got = [] ∧ ∀ ret, (readLoop fd len (answer :: rest) 0 ptr k).ret = some ret → ret ≤ 0) ∨
            0 < got.length ∧ got.length < len ∧
              (readLoop fd len (answer :: rest) 0 ptr k).ret = some (got.length : Int) ∧
              (readLoop fd len (answer :: rest) 0 ptr k).ptr = ptr.store got) := by
      intro k' still full looped heard
      have before : k.Moved k' fd [] (k.heardAll answer.arrivals) := by
        simpa using arrived.trans still
      obtain ⟨got, moved, returned⟩ := ih (before.numbered numbered) (full ▸ short)
      rw [looped, heard]
      exact ⟨got, before.trans moved, returned⟩
    have logged : (k.arriveAll answer.arrivals).Moved
        ((k.arriveAll answer.arrivals).log (.read fd [])) fd [] [] :=
      .of_kept rfl fun _ _ found => found
    have read := (k.arriveAll answer.arrivals).moved_read fd len answer.result
    cases isOpen : (k.arriveAll answer.arrivals).sock fd with
    | none =>
      refine again _ logged ?_ ?_ ?_
      · cases result : answer.result with
        | ok n => simp only [fullRead, isOpen, result]
        | error e => cases e <;> simp only [fullRead, isOpen, result]
      · simp only [readLoop, Kernel.read, isOpen]
      · simp only [readHeard, Kernel.read, isOpen]
    | some s =>
      cases result : answer.result with
      | error e =>
        cases e with
        | eintr =>
          apply again _ logged
          · simp only [fullRead, result]
          · simp only [readLoop, Kernel.read, isOpen, result]
          · simp only [readHeard, Kernel.read, isOpen, result]
        | other =>
          apply again _ logged
          · simp only [fullRead, result]
          · simp only [readLoop, Kernel.read, isOpen, result]
          · simp only [readHeard, Kernel.read, isOpen, result]
        | eagain =>
          refine ⟨[], ?_, .inl ⟨rfl, fun ret returned => ?_⟩⟩
          · simp only [readLoop, readHeard, Kernel.read, isOpen, result]
            exact arrived.trans logged
          · simp only [readLoop, Kernel.read, isOpen, result, Option.some.injEq] at returned
            omega
      | ok n =>
        let got := s.rx.take (min n len)
        have few : got.length < len := by
          simp only [fullRead, isOpen, result, decide_eq_false_iff_not, not_le] at short
          simp only [got, List.length_take]
          omega
        have once : ¬0 + got.length = len := by omega
        rw [result] at read
        have taken := arrived.trans read
        by_cases some' : got.length > 0
        · refine ⟨got, ?_, .inr ⟨some', few, ?_, ?_⟩⟩
          · simp only [Kernel.read, isOpen] at taken
            simp only [readLoop, readHeard, Kernel.read, isOpen, result]
            rw [if_pos some', if_neg once, if_pos some', if_neg once]
            exact taken
          · simp only [readLoop, Kernel.read, isOpen, result]
            rw [if_pos some', if_neg once]
            exact congrArg (fun n : Nat => some (n : Int)) (Nat.zero_add _)
          · simp only [readLoop, Kernel.read, isOpen, result]
            rw [if_pos some', if_neg once]
        · have empty : got = [] := List.eq_nil_of_length_eq_zero (by omega)
          refine ⟨[], ?_, .inl ⟨rfl, fun ret returned => ?_⟩⟩
          · simp only [Kernel.read, isOpen] at taken
            simp only [readLoop, readHeard, Kernel.read, isOpen, result]
            rw [if_neg some', if_neg some']
            rw [← empty]
            exact taken
          · simp only [readLoop, Kernel.read, isOpen, result] at returned
            rw [if_neg some'] at returned
            have value := Option.some.inj returned
            omega

/-! ## The accepting loop -/

/-- The loop accepts nothing, or one connection with the bytes that came with it. -/
theorem acceptLoop_heard (listening : Fd) (script : List (Except Errno Kernel.Incoming))
    (k : Kernel) :
    (∃ result, Server.acceptLoop listening script k = (result, k) ∧
      (result = none ∨ result = some none) ∧ acceptHeard listening script k = []) ∨
    ∃ inc, k.Free inc.fd ∧
      Server.acceptLoop listening script k =
        (some (some inc.fd), Server.acceptedKernel k inc) ∧
      acceptHeard listening script k = [.put (k.accepted + 1) inc.bytes] := by
  induction script with
  | nil => exact .inl ⟨none, rfl, .inl rfl, rfl⟩
  | cons answer rest ih =>
    cases answer with
    | error e =>
      cases e with
      | eintr => exact ih
      | eagain => exact .inl ⟨some none, rfl, .inr rfl, rfl⟩
      | other => exact .inl ⟨some none, rfl, .inr rfl, rfl⟩
    | ok inc =>
      by_cases grants : k.Free inc.fd ∧ (k.sock listening).isSome = true
      · refine .inr ⟨inc, grants.1, ?_, ?_⟩
        · simp only [Server.acceptLoop, Kernel.accept, if_pos grants]
          rfl
        · simp only [acceptHeard, Kernel.accept, if_pos grants]
      · refine .inl ⟨some none, ?_, .inr rfl, ?_⟩
        · simp only [Server.acceptLoop, Kernel.accept, if_neg grants]
        · simp only [acceptHeard, Kernel.accept, if_neg grants]

namespace Server

/-- What is done with an accepted descriptor accepts nothing more and opens nothing; it may close
the descriptor. -/
theorem serverAccept_kernel (s : Server) (input : AcceptInput) {inc : Kernel.Incoming}
    (looped : acceptLoop (s.conns serverConn).fd input.script s.kernel =
      (some (some inc.fd), acceptedKernel s.kernel inc)) :
    (s.serverAccept input).2.kernel.accepted = s.kernel.accepted + 1 ∧
      ∀ x sock, (s.serverAccept input).2.kernel.sock x = some sock →
        (acceptedKernel s.kernel inc).sock x = some sock := by
  have closed : ∀ (srv : Server), srv.kernel.accepted = s.kernel.accepted + 1 →
      srv.kernel.sock = (acceptedKernel s.kernel inc).sock →
      (srv.acceptErr inc.fd).kernel.accepted = s.kernel.accepted + 1 ∧
        ∀ x sock, (srv.acceptErr inc.fd).kernel.sock x = some sock →
          (acceptedKernel s.kernel inc).sock x = some sock := by
    intro srv accepted sock
    unfold acceptErr
    split
    · refine ⟨accepted, fun x s' found => ?_⟩
      rw [← sock]
      by_cases same : x = inc.fd
      · simp [Kernel.close, same] at found
      · simpa [Kernel.close, Function.update_of_ne same] using found
    · exact ⟨accepted, fun x s' found => sock ▸ found⟩
  unfold serverAccept acceptConn
  simp only [looped]
  rcases getConn_cases { s with kernel := acceptedKernel s.kernel inc } input.connGranted with
    ⟨failed, _, _⟩ | ⟨c, rest, nconn, _, given⟩
  · rw [failed]
    exact closed _ rfl rfl
  · rw [given]
    simp only [acceptAdd, epollEventAddConn, Function.update_self]
    by_cases added : (((acceptedKernel s.kernel inc).sock inc.fd).isSome &&
        ((acceptedKernel s.kernel inc).reg inc.fd).isNone && input.granted) = true
    · simp only [Kernel.ctlAdd, if_pos added, ne_eq, not_true_eq_false, if_false]
      exact ⟨rfl, fun _ _ found => found⟩
    · simp only [Kernel.ctlAdd, if_neg added, ne_eq, reduceCtorEq, not_false_eq_true, if_true]
      exact closed _ rfl rfl

end Server

/-! ## The receiving part of `event_read` -/

/-- If the reactor is about to read, the read does not fill the buffer and its allocations
succeed. -/
def Pc.ReadsWhole (srv : Server) (input : Server.ReadInput) : Pc → Prop
  | .read fr c => hasAny eventReadBits fr.events = true →
      input.strGranted = true ∧ input.itemGranted = true ∧
        fullRead (srv.conns c).fd Server.recvbufferSize input.script srv.kernel = false
  | _ => True

instance (srv : Server) (input : Server.ReadInput) (pc : Pc) :
    Decidable (pc.ReadsWhole srv input) :=
  match pc with
  | .read fr c => inferInstanceAs (Decidable (hasAny eventReadBits fr.events = true →
      input.strGranted = true ∧ input.itemGranted = true ∧
        fullRead (srv.conns c).fd Server.recvbufferSize input.script srv.kernel = false))
  | .blocked | .test _ | .accept _ | .sockopt .. | .push .. | .post .. | .write .. | .inHandler
  | .stopped => inferInstanceAs (Decidable True)

/-- No read of `event_read` fills the buffer, and its allocations succeed. -/
def Whole (s : State) : Label → Prop
  | .read input => s.reactor.ReadsWhole s.srv input
  | _ => True

instance (s : State) (l : Label) : Decidable (Whole s l) :=
  match l with
  | .read input => inferInstanceAs (Decidable (s.reactor.ReadsWhole s.srv input))
  | .wait _ | .test | .accept _ | .sockopt _ | .push | .post | .write _ | .arrive _ | .send ..
  | .worker _ | .interrupt _ => inferInstanceAs (Decidable True)

namespace Server

variable {s : Server} {c : ConnPtr} {input : ReadInput}

/-- Hanging up accepts nothing and opens nothing. -/
theorem hangUp_kept (s : Server) (c : ConnPtr) :
    (s.hangUp c).kernel.accepted = s.kernel.accepted ∧
      ∀ x sock, (s.hangUp c).kernel.sock x = some sock → s.kernel.sock x = some sock := by
  have deleted : (s.kernel.ctlDel (s.conns c).fd).2.accepted = s.kernel.accepted := by
    unfold Kernel.ctlDel
    split <;> rfl
  by_cases positive : (s.conns c).fd > 0
  · rw [hangUp_eq positive]
    refine ⟨deleted, fun x sock found => ?_⟩
    by_cases same : x = (s.conns c).fd
    · simp [Kernel.close, same] at found
    · simpa [Kernel.close, Function.update_of_ne same] using found
  · simp only [hangUp, setConn, closeConnObj, epollEventDelConn, positive, if_false]
    refine ⟨deleted, fun x sock found => ?_⟩
    rwa [ctlDel_sock] at found

/-- An `event_read` that counted bytes builds an item that shows them. -/
theorem eventReadRecv_item {got : List UInt8} (some' : 0 < got.length)
    (few : got.length < recvbufferSize) (str : input.strGranted = true)
    (granted : input.itemGranted = true)
    (ret : (readLoop (s.conns c).fd recvbufferSize input.script 0 (recvbuffer input.beyond)
      s.kernel).ret = some (got.length : Int))
    (ptr : (readLoop (s.conns c).fd recvbufferSize input.script 0 (recvbuffer input.beyond)
      s.kernel).ptr = (recvbuffer input.beyond).store got) :
    ∃ item heap, s.eventReadRecv c input = (.item item, { s.received c input with heap }) ∧
      item.client = ((s.kernel.sock (s.conns c).fd).map Socket.client).getD 0 ∧
      item.received = got := by
  have size : recvbufferSize = 16384 := rfl
  have nonzero : ¬(got.length : Int) = 0 := by omega
  have counted : (got.length : Int) > 0 := by omega
  have width : ((got.length : Int) % 2 ^ 64).toNat = got.length := by omega
  unfold eventReadRecv readData
  simp only [ret, ptr, nonzero, counted, if_true, if_false, granted, cStrMalloc, cStrCreate, width,
    str, some']
  refine ⟨_, _, rfl, rfl, ?_⟩
  have whole : (((recvbuffer input.beyond).store got).copy got.length).length = got.length := by
    simp [Memory.copy]
  show List.take got.length _ = got
  rw [List.take_append_of_le_length (Nat.le_of_eq whole.symm), copy_store, List.take_length]

/-- An `event_read` whose reads do not fill the buffer builds an item of the bytes it read, or it
read none and builds no item. -/
theorem eventReadRecv_moved (numbered : s.kernel.Numbered)
    (str : input.strGranted = true) (granted : input.itemGranted = true)
    (short : fullRead (s.conns c).fd recvbufferSize input.script s.kernel = false) :
    (s.kernel.Moved (s.eventReadRecv c input).2.kernel (s.conns c).fd []
        (readHeard (s.conns c).fd recvbufferSize input.script 0 s.kernel) ∧
      ∀ item, (s.eventReadRecv c input).1 ≠ .item item) ∨
    ∃ item sock, (s.eventReadRecv c input).1 = .item item ∧
      s.kernel.sock (s.conns c).fd = some sock ∧ item.client = sock.client ∧
      ((s.eventReadRecv c input).2.kernel.sock (s.conns c).fd).isSome = true ∧
      s.kernel.Moved (s.eventReadRecv c input).2.kernel (s.conns c).fd item.received
        (readHeard (s.conns c).fd recvbufferSize input.script 0 s.kernel) := by
  obtain ⟨got, moved, ⟨rfl, none⟩ | ⟨some', few, ret, ptr⟩⟩ :=
    readLoop_moved numbered (recvbuffer input.beyond) short
  · left
    rcases s.eventReadRecv_cases c input with
      ⟨_, called⟩ | ⟨_, called⟩ | ⟨recvlen, heap, _, _, _, called⟩ |
      ⟨recvlen, item, made, returned, positive, _⟩
    · rw [called]
      obtain ⟨accepted, kept⟩ := (s.received c input).hangUp_kept c
      have ended := moved.trans (.of_kept accepted kept)
      rw [List.append_nil] at ended
      exact ⟨ended, nofun⟩
    · rw [called]
      exact ⟨moved, nofun⟩
    · rw [called]
      exact ⟨moved, nofun⟩
    · have count := none recvlen returned
      omega
  · right
    obtain ⟨item, heap, called, client, received⟩ :=
      eventReadRecv_item some' few str granted ret ptr
    cases isOpen : s.kernel.sock (s.conns c).fd with
    | none =>
      rw [readLoop_closed _ _ _ _ isOpen] at ret
      contradiction
    | some sock =>
      rw [isOpen] at client
      refine ⟨item, sock, by rw [called], rfl, client, ?_, ?_⟩
      · rw [called]
        show ((s.received c input).kernel.sock (s.conns c).fd).isSome = true
        rw [(s.sameTable_received c input).isOpen, isOpen]
        rfl
      · rw [called, received]
        exact moved

end Server

/-! ## Steps -/

/-- What a step does to the streams: bytes arrive, a client comes with its first bytes, bytes are
read and become a chunk, or a chunk is handed over. -/
inductive StreamStep (s s' : State) (events : List StreamEvent) : Prop
  /-- No chunk is made or handed over, and nobody comes. -/
  | quiet (fd : Fd) : chunks s'.history = chunks s.history → handed s'.history = handed s.history →
      s.srv.kernel.Moved s'.srv.kernel fd [] events → StreamStep s s' events
  /-- A connection is accepted. -/
  | accepted (inc : Kernel.Incoming) : chunks s'.history = chunks s.history →
      handed s'.history = handed s.history → s.srv.kernel.Free inc.fd →
      s'.srv.kernel.accepted = s.srv.kernel.accepted + 1 →
      (∀ x sock, s'.srv.kernel.sock x = some sock →
        (Server.acceptedKernel s.srv.kernel inc).sock x = some sock) →
      events = [.put (s.srv.kernel.accepted + 1) inc.bytes] → StreamStep s s' events
  /-- A chunk is read. -/
  | read (item : Item) (fd : Fd) (sock : Socket) :
      chunks s'.history = chunks s.history ++ [item] → handed s'.history = handed s.history →
      s.srv.kernel.sock fd = some sock → item.client = sock.client →
      (s'.srv.kernel.sock fd).isSome = true →
      s.srv.kernel.Moved s'.srv.kernel fd item.received events → StreamStep s s' events
  /-- A chunk is handed over. -/
  | called (item : Item) : chunks s'.history = chunks s.history →
      handed s'.history = handed s.history ++ [item] → s'.srv.kernel = s.srv.kernel →
      events = [.take item.client item.received] → StreamStep s s' events

variable {s s' : State}

/-- A step that leaves the streams alone. -/
theorem StreamStep.of_kept (made : chunks s'.history = chunks s.history)
    (hands : handed s'.history = handed s.history)
    (accepted : s'.srv.kernel.accepted = s.srv.kernel.accepted)
    (kept : ∀ x sock, s'.srv.kernel.sock x = some sock → s.srv.kernel.sock x = some sock) :
    StreamStep s s' [] := .quiet 0 made hands (.of_kept accepted kept)

/-- `sendData` accepts nothing and leaves the sockets. -/
theorem sendData_sock (c : ConnObj) (b : Buf) (script : List (Except Errno Nat)) (k : Kernel) :
    (sendData c b script k).kernel.accepted = k.accepted ∧
      (sendData c b script k).kernel.sock = k.sock := by
  apply sendLoop_kernel (P := fun k' => k'.accepted = k.accepted ∧ k'.sock = k.sock)
  · intro k' bytes answer ⟨accepted, sock⟩
    refine ⟨?_, (k'.write_sock _ _ _ _).trans sock⟩
    rw [← accepted]
    unfold Kernel.write
    split <;> rfl
  · exact ⟨rfl, rfl⟩

/-- Changing an interest accepts nothing. -/
theorem ctlMod_accepted (k : Kernel) (fd : Fd) (ev : EpollEvent) :
    (k.ctlMod fd ev).2.accepted = k.accepted := by
  unfold Kernel.ctlMod
  split <;> rfl

/-- A worker's step hands over one chunk or none. -/
theorem streamStep_worker {w : Nat} (moved : WorkerStep s w s') :
    StreamStep s s' (observed s (.worker w)) := by
  unfold observed
  cases moved with
  | taken found _ => simp only [found]; exact .of_kept rfl rfl rfl fun _ _ here => here
  | sized found _ => simp only [found]; exact .of_kept rfl rfl rfl fun _ _ here => here
  | sizedEmpty found _ => simp only [found]; exact .of_kept rfl rfl rfl fun _ _ here => here
  | poppedEmpty found _ => simp only [found]; exact .of_kept rfl rfl rfl fun _ _ here => here
  | popped found _ => simp only [found]; exact .of_kept rfl rfl rfl fun _ _ here => here
  | @called item found => simp only [found]; exact .called item rfl rfl rfl rfl
  | returned found => simp only [found]; exact .of_kept rfl rfl rfl fun _ _ here => here
  | freed found => simp only [found]; exact .of_kept rfl rfl rfl fun _ _ here => here

/-- `Server_Accept` accepts one connection or none. -/
theorem streamStep_accept {input : Server.AcceptInput}
    (stepped : step s (.accept input) = some s') :
    StreamStep s s' (observed s (.accept input)) := by
  simp only [step] at stepped
  unfold observed
  split at stepped
  · rename_i fr at_accept
    obtain rfl := Option.some.inj stepped
    rw [at_accept]
    dsimp only
    have frame : (afterAccept s fr (s.srv.serverAccept input)).srv =
        (s.srv.serverAccept input).2 ∧
        (afterAccept s fr (s.srv.serverAccept input)).history = s.history := by
      unfold afterAccept
      split
      · rename_i called
        exact ⟨by rw [called], rfl⟩
      · rename_i called
        exact ⟨by rw [called], rfl⟩
      · rename_i called
        exact ⟨by rw [called], rfl⟩
    rcases acceptLoop_heard (s.srv.conns serverConn).fd input.script s.srv.kernel with
      ⟨result, looped, kind, heard⟩ | ⟨inc, free, looped, heard⟩
    · have same : (s.srv.serverAccept input).2 = s.srv := by
        unfold Server.serverAccept Server.acceptConn
        rcases kind with rfl | rfl <;> simp only [looped]
      rw [heard]
      apply StreamStep.of_kept
      · rw [frame.2]
      · rw [frame.2]
      · rw [frame.1, same]
      · rw [frame.1, same]
        exact fun _ _ found => found
    · obtain ⟨accepted, kept⟩ := s.srv.serverAccept_kernel input looped
      apply StreamStep.accepted inc
      · rw [frame.2]
      · rw [frame.2]
      · exact free
      · rw [frame.1]
        exact accepted
      · rw [frame.1]
        exact kept
      · exact heard
  · contradiction

/-- `event_read` reads one chunk or none. -/
theorem streamStep_read {input : Server.ReadInput} (numbered : s.srv.kernel.Numbered)
    (whole : Whole s (.read input)) (stepped : step s (.read input) = some s') :
    StreamStep s s' (observed s (.read input)) := by
  simp only [step] at stepped
  have whole : s.reactor.ReadsWhole s.srv input := whole
  unfold observed
  split at stepped
  · rename_i fr c at_read
    simp only [at_read] at whole ⊢
    by_cases reads : hasAny eventReadBits fr.events = true
    · rw [if_pos reads] at stepped ⊢
      obtain rfl := Option.some.inj stepped
      obtain ⟨str, granted, short⟩ := whole reads
      rcases Server.eventReadRecv_moved numbered str granted short with
        ⟨moved, none⟩ | ⟨item, sock, built, isOpen, client, still, moved⟩
      · have frame : (afterRead s fr c (s.srv.eventReadRecv c input)).srv =
            (s.srv.eventReadRecv c input).2 ∧
            (afterRead s fr c (s.srv.eventReadRecv c input)).history = s.history := by
          unfold afterRead
          split
          · rename_i called
            exact ⟨by rw [called], rfl⟩
          · rename_i called
            exact ⟨by rw [called], rfl⟩
          · rename_i item _ called
            exact absurd (congrArg Prod.fst called) (none item)
        apply StreamStep.quiet (s.srv.conns c).fd
        · rw [frame.2]
        · rw [frame.2]
        · rw [frame.1]
          exact moved
      · have frame : afterRead s fr c (s.srv.eventReadRecv c input) =
            { s with
              srv := (s.srv.eventReadRecv c input).2
              reactor := .push fr c item
              history := .read item :: s.history } := by
          unfold afterRead
          split
          · rename_i called
            rw [called] at built
            contradiction
          · rename_i called
            rw [called] at built
            contradiction
          · rename_i called
            rw [called] at built
            injection built with same
            rw [called, same]
        rw [frame]
        exact .read item (s.srv.conns c).fd sock rfl rfl isOpen client still moved
    · rw [if_neg reads] at stepped ⊢
      obtain rfl := Option.some.inj stepped
      exact .of_kept rfl rfl rfl fun _ _ found => found
  · contradiction

/-- Every whole step does one of these. -/
theorem streamStep {l : Label} (numbered : s.srv.kernel.Numbered) (whole : Whole s l)
    (stepped : step s l = some s') : StreamStep s s' (observed s l) := by
  cases l with
  | arrive a =>
    obtain rfl := Option.some.inj stepped
    exact .quiet a.fd rfl rfl (Kernel.moved_arrive numbered a)
  | worker w => exact streamStep_worker (serverProcess_cases stepped)
  | accept input => exact streamStep_accept stepped
  | read input => exact streamStep_read numbered whole stepped
  | wait batch =>
    cases step_cases stepped with
    | waited _ _ => exact .of_kept rfl rfl rfl fun _ _ found => found
  | test =>
    cases step_cases stepped with
    | tested _ => exact .of_kept rfl rfl rfl fun _ _ found => found
  | push =>
    cases step_cases stepped with
    | pushed _ => exact .of_kept rfl rfl rfl fun _ _ found => found
  | post =>
    cases step_cases stepped with
    | posted _ => exact .of_kept rfl rfl rfl fun _ _ found => found
  | interrupt w =>
    cases step_cases stepped with
    | interrupted _ => exact .of_kept rfl rfl rfl fun _ _ found => found
  | sockopt answer =>
    cases step_cases stepped with
    | sockoptFailed _ _ => exact .of_kept rfl rfl rfl fun _ _ found => found
    | sockoptConnected _ _ => exact .of_kept rfl rfl rfl fun _ _ found => found
    | @sockoptSevered fr c val _ _ _ =>
      refine .of_kept rfl rfl rfl fun x sock found => ?_
      by_cases same : x = (s.srv.conns c).fd
      · simp [Server.severed, Kernel.close, same] at found
      · simpa [Server.severed, Kernel.close, Function.update_of_ne same] using found
  | write script =>
    cases step_cases stepped with
    | writeIdle _ => exact .of_kept rfl rfl rfl fun _ _ found => found
    | @writeLooping fr c script b _ _ _ _ =>
      obtain ⟨accepted, sock⟩ := sendData_sock (s.srv.conns c) b script s.srv.kernel
      exact .of_kept rfl rfl accepted fun _ _ found => sock ▸ found
    | @written fr c script b heap obj flags _ _ _ _ _ _ _ =>
      obtain ⟨accepted, sock⟩ := sendData_sock (s.srv.conns c) b script s.srv.kernel
      refine .of_kept rfl rfl ((ctlMod_accepted _ _ _).trans accepted) fun x found here => ?_
      rw [← sock, ← Kernel.ctlMod_sock]
      exact here
  | send c data len granted =>
    cases step_cases stepped with
    | sendIdle => exact .of_kept rfl rfl rfl fun _ _ found => found
    | sent _ _ _ _ _ _ =>
      refine .of_kept rfl rfl (ctlMod_accepted _ _ _) fun x found here => ?_
      rw [← Kernel.ctlMod_sock]
      exact here

end EpollNet
