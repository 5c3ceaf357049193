import EpollNet.Verif.Inbound

/-!
# What the event loop sends of one payload

`sendData` leaves its loop after a partial write and goes round again after a complete one, each
time from the start of the buffer. A partial write is then taken for a complete one and the
buffer freed; a complete one is repeated. The payload goes out exactly once in just three cases,
told by the counts `write` returned: none at all, one full count so far, and a full count
followed by zero.
-/

namespace EpollNet

/-- The answers to the calls of `write` in one call of `event_write`. -/
abbrev WriteScript := List (Except Errno Nat)

/-! ## Counts -/

/-- The counts returned in one call for a payload of `n` bytes, up to the answer that ends it. -/
def callCounts (n : Nat) : WriteScript → List Nat
  | [] => []
  | .error .eintr :: rest => callCounts n rest
  | .error .eagain :: _ | .error .other :: _ => []
  | .ok m :: rest => if m < n then [m] else n :: callCounts n rest

/-- The call ends with a partial count, and the buffer is freed. -/
def callFrees (n : Nat) : WriteScript → Bool
  | [] => false
  | .error .eintr :: rest => callFrees n rest
  | .error .eagain :: _ | .error .other :: _ => false
  | .ok m :: rest => m < n || callFrees n rest

/-- The counts returned in several calls, up to the one that frees the buffer. -/
def counts (n : Nat) : List WriteScript → List Nat
  | [] => []
  | script :: rest => callCounts n script ++ if callFrees n script then [] else counts n rest

/-- Some call frees the buffer. -/
def frees (n : Nat) (calls : List WriteScript) : Bool := calls.any (callFrees n)

/-- One call's counts are full ones, and a partial one if the call frees the buffer. -/
theorem callCounts_shape (n : Nat) (script : WriteScript) : ∃ k,
    (callFrees n script = false ∧ callCounts n script = List.replicate k n) ∨
    (callFrees n script = true ∧ ∃ m < n, callCounts n script = List.replicate k n ++ [m]) := by
  induction script with
  | nil => exact ⟨0, .inl ⟨rfl, rfl⟩⟩
  | cons answer rest ih =>
    cases answer with
    | error e =>
      cases e with
      | eintr => exact ih
      | eagain => exact ⟨0, .inl ⟨rfl, rfl⟩⟩
      | other => exact ⟨0, .inl ⟨rfl, rfl⟩⟩
    | ok m =>
      by_cases partial' : m < n
      · exact ⟨0, .inr ⟨by simp [callFrees, partial'], m, partial', by simp [callCounts, partial']⟩⟩
      · obtain ⟨k, ⟨open', full⟩ | ⟨freed, last, less, full⟩⟩ := ih
        · refine ⟨k + 1, .inl ⟨by simp [callFrees, partial', open'], ?_⟩⟩
          simp [callCounts, partial', full, List.replicate_succ]
        · refine ⟨k + 1, .inr ⟨by simp [callFrees, partial', freed], last, less, ?_⟩⟩
          simp [callCounts, partial', full, List.replicate_succ]

/-- So are the counts of several calls. -/
theorem counts_shape (n : Nat) (calls : List WriteScript) : ∃ k,
    (frees n calls = false ∧ counts n calls = List.replicate k n) ∨
    (frees n calls = true ∧ ∃ m < n, counts n calls = List.replicate k n ++ [m]) := by
  induction calls with
  | nil => exact ⟨0, .inl ⟨rfl, rfl⟩⟩
  | cons script rest ih =>
    obtain ⟨first, ⟨open', full⟩ | ⟨freed, last, less, full⟩⟩ := callCounts_shape n script
    · obtain ⟨later, ⟨still, more⟩ | ⟨freed, last, less, more⟩⟩ := ih
      · refine ⟨first + later, .inl ⟨by simpa [frees, open'] using still, ?_⟩⟩
        simp [counts, open', full, more]
      · refine ⟨first + later, .inr ⟨by simpa [frees, open'] using freed, last, less, ?_⟩⟩
        simp only [counts, open', full, more, Bool.false_eq_true, if_false]
        rw [← List.append_assoc, List.replicate_append_replicate]
    · exact ⟨first, .inr ⟨by simp [frees, freed], last, less, by simp [counts, freed, full]⟩⟩

/-- A shorter list of answers gives fewer counts. -/
theorem callCounts_earlier (n : Nat) {part script : WriteScript} (earlier : part <+: script) :
    callCounts n part <+: callCounts n script := by
  induction part generalizing script with
  | nil => exact List.nil_prefix
  | cons answer rest ih =>
    obtain ⟨more, rfl⟩ := earlier
    have shorter := ih (List.prefix_append rest more)
    cases answer with
    | error e =>
      cases e with
      | eintr => exact shorter
      | eagain => exact List.prefix_refl _
      | other => exact List.prefix_refl _
    | ok m =>
      by_cases partial' : m < n
      · simp [callCounts, partial']
      · simpa [callCounts, partial'] using shorter

/-! ## Moments -/

/-- A moment of a sequence of calls: nothing yet, or some calls and a part of the next. -/
inductive Moment (calls : List WriteScript) : List WriteScript → Prop
  /-- Before the first call. -/
  | before : Moment calls []
  /-- In a call, or at its end. -/
  | during {whole rest : List WriteScript} {part script : WriteScript} :
      calls = whole ++ script :: rest → part <+: script → Moment calls (whole ++ [part])

/-- At a moment fewer counts have been returned. -/
theorem Moment.counts_earlier (n : Nat) {calls moment : List WriteScript}
    (earlier : Moment calls moment) : counts n moment <+: counts n calls := by
  cases earlier with
  | before => exact List.nil_prefix
  | @during whole rest part script split shorter =>
    subst split
    induction whole with
    | nil =>
      simp only [List.nil_append, counts, List.append_nil, ite_self]
      exact (callCounts_earlier n shorter).trans (List.prefix_append _ _)
    | cons first whole ih =>
      simp only [List.cons_append, counts]
      split
      · exact List.prefix_refl _
      · exact (List.prefix_append_right_inj _).mpr ih

/-- The end of the last call is a moment. -/
theorem Moment.last (calls : List WriteScript) : Moment calls calls := by
  rcases List.eq_nil_or_concat calls with rfl | ⟨whole, script, rfl⟩
  · exact .before
  · rw [List.concat_eq_append]
    exact .during rfl (List.prefix_refl script)

/-! ## Bytes accepted -/

/-- The bytes a call took out of a buffer. -/
def Call.tookFrom (buf : Nat) : Call → List UInt8
  | .write _ x took => if x = buf then took else []
  | _ => []

/-- The bytes sockets accepted out of a buffer so far, in order. -/
def acceptedFrom (buf : Nat) (trace : List Call) : List UInt8 :=
  trace.reverse.flatMap (Call.tookFrom buf)

/-- A later call's bytes come last. -/
theorem acceptedFrom_cons (buf : Nat) (call : Call) (trace : List Call) :
    acceptedFrom buf (call :: trace) = acceptedFrom buf trace ++ call.tookFrom buf := by
  simp [acceptedFrom]

/-- The payload bytes that calls of `write` from its start accept, given their counts. -/
def acceptedBytes (payload : List UInt8) (counts : List Nat) : List UInt8 :=
  counts.flatMap fun m => payload.take m

/-- Several full counts and perhaps a partial one accept a prefix of the payload, and all of it
if the last is partial, just when there is at most one full count and then at most a zero. -/
theorem acceptedBytes_prefix_iff {payload : List UInt8} {n k m : Nat} (positive : 0 < n)
    (length : payload.length = n) (less : m < n) :
    (acceptedBytes payload (List.replicate k n) <+: payload ↔ k ≤ 1) ∧
      (acceptedBytes payload (List.replicate k n ++ [m]) = payload ↔ k = 1 ∧ m = 0) := by
  have whole : payload.take n = payload := List.take_of_length_le (le_of_eq length)
  have size : (acceptedBytes payload (List.replicate k n)).length = k * n := by
    simp [acceptedBytes, length]
  have bytes : acceptedBytes payload (List.replicate k n ++ [m]) =
      acceptedBytes payload (List.replicate k n) ++ payload.take m := by
    simp [acceptedBytes]
  constructor
  · constructor
    · intro earlier
      have short := earlier.length_le
      rw [size, length] at short
      exact Nat.le_of_mul_le_mul_right (by omega) positive
    · intro few
      rcases Nat.le_one_iff_eq_zero_or_eq_one.mp few with rfl | rfl
      · exact List.nil_prefix
      · simp [acceptedBytes, whole]
  · constructor
    · intro equal
      have total := congrArg List.length equal
      rw [bytes, List.length_append, size, List.length_take, length,
        Nat.min_eq_left (by omega)] at total
      have one : k = 1 := by
        rcases Nat.lt_trichotomy k 1 with zero | one | more
        · have none : k = 0 := by omega
          subst none
          omega
        · exact one
        · have twice : 2 * n ≤ k * n := Nat.mul_le_mul_right n more
          omega
      subst one
      exact ⟨rfl, by omega⟩
    · rintro ⟨rfl, rfl⟩
      simp [acceptedBytes, whole]

/-! ## One call -/

/-- What the sending loop leaves: the bytes its counts accept, the sockets as they were, and zero
just when it ended with a partial count. -/
theorem sendLoop_counts {fd : Fd} {b : Buf} {n : Nat} (positive : 0 < n)
    (length : (b.str.buf.take n).length = n) (script : WriteScript) (k : Kernel)
    (isOpen : (k.sock fd).isSome = true) :
    acceptedFrom b.addr (sendLoop fd b n n script k).kernel.trace =
        acceptedFrom b.addr k.trace ++ acceptedBytes (b.str.buf.take n) (callCounts n script) ∧
      (sendLoop fd b n n script k).kernel.sock = k.sock ∧
      ((callFrees n script = true ∧ (sendLoop fd b n n script k).ret = some 0) ∨
        (callFrees n script = false ∧ ((sendLoop fd b n n script k).ret = none ∨
          (sendLoop fd b n n script k).ret = some (-2) ∨
          (sendLoop fd b n n script k).ret = some (-1)))) := by
  induction script generalizing k with
  | nil =>
    have looping : sendLoop fd b n n [] k = ⟨none, k⟩ := by
      rw [sendLoop.eq_def]
      exact if_pos positive
    rw [looping]
    exact ⟨by simp [callCounts, acceptedBytes], rfl, .inr ⟨rfl, .inl rfl⟩⟩
  | cons answer rest ih =>
    obtain ⟨socket, found⟩ := Option.isSome_iff_exists.mp isOpen
    have taken : ∀ took, acceptedFrom b.addr (k.log (.write fd b.addr took)).trace =
        acceptedFrom b.addr k.trace ++ took := by
      intro took
      rw [Kernel.log_trace, acceptedFrom_cons]
      simp [Call.tookFrom]
    rw [sendLoop_cons positive]
    simp only [Nat.sub_self, List.drop_zero, Kernel.write, found]
    cases answer with
    | error e =>
      cases e with
      | eintr =>
        have later := ih (k.log (.write fd b.addr [])) isOpen
        rwa [taken [], List.append_nil] at later
      | eagain => exact ⟨taken [], rfl, .inr ⟨rfl, .inr (.inl rfl)⟩⟩
      | other => exact ⟨taken [], rfl, .inr ⟨rfl, .inr (.inr rfl)⟩⟩
    | ok m =>
      simp only [length]
      by_cases part : m < n
      · have fewer : min m n < n := by omega
        rw [if_pos fewer]
        refine ⟨?_, rfl, .inl ⟨by simp [callFrees, part], rfl⟩⟩
        simp only [taken, callCounts, part, if_true, acceptedBytes, List.flatMap_cons,
          List.flatMap_nil, List.append_nil]
      · have full : ¬min m n < n := by omega
        have all : (b.str.buf.take n).take m = b.str.buf.take n :=
          List.take_of_length_le (by omega)
        have whole : (b.str.buf.take n).take n = b.str.buf.take n :=
          List.take_of_length_le (le_of_eq length)
        rw [if_neg full, all]
        have later := ih (k.log (.write fd b.addr (b.str.buf.take n))) isOpen
        rw [taken] at later
        obtain ⟨bytes, sock, ret⟩ := later
        refine ⟨?_, sock, ?_⟩
        · rw [bytes]
          simp only [callCounts, part, if_false, acceptedBytes, List.flatMap_cons, whole,
            List.append_assoc]
        · simpa [callFrees, part] using ret

/-- A connection with an open descriptor and a payload of `n` bytes to send. -/
structure Server.Pending (s : Server) (c : ConnPtr) (b : Buf) (n : Nat) : Prop where
  /-- The descriptor is open. -/
  isOpen : (s.kernel.sock (s.conns c).fd).isSome = true
  /-- The buffer waits. -/
  waits : (s.conns c).sendptr = some b
  /-- Its length. -/
  length : (s.conns c).sendlen = n

variable {s : Server} {c : ConnPtr} {b : Buf} {n : Nat}

/-- A registration change takes no bytes. -/
theorem acceptedFrom_modify (s : Server) (c : ConnPtr) (flags : BitVec 32) (buf : Nat) :
    acceptedFrom buf (s.epollEventModifyConn c flags).2.kernel.trace =
      acceptedFrom buf s.kernel.trace := by
  unfold Server.epollEventModifyConn Kernel.ctlMod
  dsimp only
  split
  · simp [Kernel.register, acceptedFrom_cons, Call.tookFrom]
  · simp [acceptedFrom_cons, Call.tookFrom]

/-- One `event_write` with a payload pending accepts the bytes its counts say, and either leaves
the payload pending or frees its buffer. -/
theorem eventWrite_pending (pending : s.Pending c b n) (positive : 0 < n) (small : n < 2 ^ 31)
    (length : (b.str.buf.take n).length = n) (script : WriteScript) :
    acceptedFrom b.addr (s.eventWrite c script).2.kernel.trace =
        acceptedFrom b.addr s.kernel.trace ++
          acceptedBytes (b.str.buf.take n) (callCounts n script) ∧
      ((callFrees n script = false ∧ (s.eventWrite c script).2.Pending c b n ∧
          (s.eventWrite c script).2.heap.freed = s.heap.freed) ∨
        (callFrees n script = true ∧ ((s.eventWrite c script).2.conns c).sendptr = none ∧
          (s.eventWrite c script).2.heap.freed = b.addr :: s.heap.freed)) := by
  obtain ⟨isOpen, waits, sendlen⟩ := pending
  obtain ⟨bytes, sock, outcome⟩ := sendLoop_counts positive length script s.kernel isOpen
  have loop : sendData (s.conns c) b script s.kernel =
      sendLoop (s.conns c).fd b n n script s.kernel := by
    rw [sendData, sendlen, asInt_toNat small]
  rw [← loop] at bytes sock outcome
  -- an attempt that keeps the buffer leaves it pending
  have keeps : ∀ flags, ((s.sending c b script).epollEventModifyConn c flags).2.Pending c b n := by
    intro flags
    refine ⟨?_, waits, sendlen⟩
    simpa [Server.epollEventModifyConn, Server.sending, sock] using isOpen
  rcases s.eventWrite_cases c script with
    ⟨idle, _⟩ | ⟨b', waits', _, ⟨ret, called⟩ | ⟨ret, called⟩ | ⟨ret, called⟩ |
      ⟨ret', ret, blocked, failed, called⟩⟩
  · rcases idle with none | empty
    · rw [none] at waits
      contradiction
    · omega
  all_goals
    obtain rfl : b' = b := Option.some.inj (waits'.symm.trans waits)
    rw [called]
    rw [ret] at outcome
  · obtain ⟨freed, _⟩ := outcome.resolve_left (by simp)
    refine ⟨bytes, .inl ⟨freed, ⟨?_, waits, sendlen⟩, rfl⟩⟩
    simpa [Server.sending, sock] using isOpen
  · obtain ⟨freed, _⟩ := outcome.resolve_left (by simp)
    exact ⟨(acceptedFrom_modify _ c _ _).trans bytes, .inl ⟨freed, keeps _, rfl⟩⟩
  · obtain ⟨freed, _⟩ := outcome.resolve_left (by simp)
    exact ⟨(acceptedFrom_modify _ c _ _).trans bytes, .inl ⟨freed, keeps _, rfl⟩⟩
  · obtain ⟨freed, _⟩ := outcome.resolve_right (by simp [blocked, failed])
    refine ⟨(acceptedFrom_modify _ c _ _).trans bytes, .inr ⟨freed, ?_, rfl⟩⟩
    simp [Server.epollEventModifyConn, Server.unloaded]

/-! ## All calls -/

/-- Calls of `event_write` one after the other. -/
def Server.eventWrites (s : Server) (c : ConnPtr) (calls : List WriteScript) : Server :=
  calls.foldl (fun s script => (s.eventWrite c script).2) s

/-- With no buffer nothing is written. -/
theorem eventWrites_idle (idle : (s.conns c).sendptr = none) (calls : List WriteScript) :
    s.eventWrites c calls = s := by
  induction calls with
  | nil => rfl
  | cons script rest ih =>
    rcases s.eventWrite_cases c script with ⟨_, called⟩ | ⟨b, waits, _⟩
    · rw [Server.eventWrites, List.foldl_cons, called]
      exact ih
    · rw [idle] at waits
      contradiction

/-- Calls with a payload pending accept the bytes their counts say, and free its buffer once if
one of them does. -/
theorem eventWrites_pending (pending : s.Pending c b n) (positive : 0 < n) (small : n < 2 ^ 31)
    (length : (b.str.buf.take n).length = n) (calls : List WriteScript) :
    acceptedFrom b.addr (s.eventWrites c calls).kernel.trace =
        acceptedFrom b.addr s.kernel.trace ++
          acceptedBytes (b.str.buf.take n) (counts n calls) ∧
      (s.eventWrites c calls).heap.freed =
        if frees n calls then b.addr :: s.heap.freed else s.heap.freed := by
  induction calls generalizing s with
  | nil => exact ⟨by simp [Server.eventWrites, counts, acceptedBytes], rfl⟩
  | cons script rest ih =>
    obtain ⟨bytes, ⟨kept, still, heap⟩ | ⟨freed, idle, heap⟩⟩ :=
      eventWrite_pending pending positive small length script
    · obtain ⟨more, later⟩ := ih still
      rw [Server.eventWrites, List.foldl_cons]
      refine ⟨more.trans ?_, later.trans ?_⟩
      · simp only [bytes, counts, kept, Bool.false_eq_true, if_false, acceptedBytes,
          List.flatMap_append, List.append_assoc]
      · simp only [heap, frees, List.any_cons, kept, Bool.false_or]
    · have stop := eventWrites_idle idle rest
      rw [Server.eventWrites, List.foldl_cons]
      unfold Server.eventWrites at stop
      rw [stop]
      refine ⟨bytes.trans ?_, heap.trans ?_⟩
      · simp only [counts, freed, if_true, List.append_nil]
      · simp only [frees, List.any_cons, freed, Bool.true_or, if_true]

/-- At every moment of the calls after `ServerSend` accepted a payload, the bytes the socket has
accepted for it are a prefix of the payload, and all of it once its buffer was freed. -/
def Server.ExactlyOnce (s : Server) (c : ConnPtr) (data : Memory) (n : Nat)
    (calls : List WriteScript) : Prop :=
  ∀ moment, Moment calls moment →
    ∃ bytes, acceptedFrom s.heap.next
        ((s.serverSend c (some data) n true).eventWrites c moment).kernel.trace =
          acceptedFrom s.heap.next s.kernel.trace ++ bytes ∧
      bytes <+: data.copy n ∧
      (((s.serverSend c (some data) n true).eventWrites c moment).heap.freed ≠ s.heap.freed →
        bytes = data.copy n)

/-- The buffer `ServerSend` makes of a payload. -/
def payloadBuf (s : Server) (data : Memory) (n : Nat) : Buf :=
  ⟨s.heap.next, ⟨n, 0, data.copy n ++ [0]⟩⟩

/-- The payload is the start of its buffer. -/
theorem take_payloadBuf (s : Server) (data : Memory) (n : Nat) :
    (payloadBuf s data n).str.buf.take n = data.copy n := by
  have length : (data.copy n).length = n := by simp [Memory.copy]
  rw [payloadBuf, List.take_append_of_le_length (le_of_eq length.symm),
    List.take_of_length_le (le_of_eq length)]

/-- `ServerSend` on a connected object makes its payload pending. -/
theorem serverSend_pending (data : Memory) (connected : (s.conns c).activity = .connected)
    (isOpen : (s.kernel.sock (s.conns c).fd).isSome = true) (positive : 0 < n)
    (small : n < 2 ^ 31) :
    (s.serverSend c (some data) n true).Pending c (payloadBuf s data n) n ∧
      (∀ buf, acceptedFrom buf (s.serverSend c (some data) n true).kernel.trace =
        acceptedFrom buf s.kernel.trace) ∧
      (s.serverSend c (some data) n true).heap.freed = s.heap.freed := by
  have goes : (n : Int) > 0 ∧ (s.conns c).activity = .connected := ⟨by omega, connected⟩
  have size : ((n : Int) % 2 ^ 64).toNat = n := by omega
  have sent : s.serverSend c (some data) n true =
      (({ s with
        heap := { s.heap with next := s.heap.next + 1 }
        conns := Function.update s.conns c
          { s.conns c with sendptr := some (payloadBuf s data n), sendlen := n }
        sent := (c, s.client c, payloadBuf s data n) :: s.sent } :
          Server).epollEventModifyConn c eventWriteBits).2 := by
    unfold Server.serverSend Server.serverSendStore
    simp only [goes, and_self, if_true, cStrMalloc, cStrCreate, size, positive, Int.toNat_natCast]
    rfl
  rw [sent]
  refine ⟨⟨?_, ?_, ?_⟩, fun buf => acceptedFrom_modify _ c _ buf, rfl⟩
  · simpa [Server.epollEventModifyConn] using isOpen
  · simp [Server.epollEventModifyConn]
  · simp [Server.epollEventModifyConn]

/-- What the socket accepted at a moment, and whether the buffer was freed, by the counts. -/
theorem eventWrites_sent (data : Memory) (connected : (s.conns c).activity = .connected)
    (isOpen : (s.kernel.sock (s.conns c).fd).isSome = true) (positive : 0 < n)
    (small : n < 2 ^ 31) (calls : List WriteScript) :
    acceptedFrom s.heap.next
        ((s.serverSend c (some data) n true).eventWrites c calls).kernel.trace =
          acceptedFrom s.heap.next s.kernel.trace ++ acceptedBytes (data.copy n) (counts n calls) ∧
      (((s.serverSend c (some data) n true).eventWrites c calls).heap.freed ≠ s.heap.freed ↔
        frees n calls = true) := by
  obtain ⟨pending, bytes, heap⟩ := serverSend_pending data connected isOpen positive small
  have take := take_payloadBuf s data n
  have length : ((payloadBuf s data n).str.buf.take n).length = n := by
    rw [take]
    simp [Memory.copy]
  obtain ⟨accepted, freed⟩ := eventWrites_pending pending positive small length calls
  rw [take] at accepted
  constructor
  · exact accepted.trans (congrArg (· ++ _) (bytes s.heap.next))
  · rw [freed, heap]
    cases frees n calls with
    | false => simp
    | true => simp

/-- The counts of a payload that went out exactly once so far. -/
def SentOnce (n : Nat) (counts : List Nat) : Prop := counts = [] ∨ counts = [n] ∨ counts = [n, 0]

/-- At one moment the bytes accepted are a prefix of the payload, and all of it if the buffer was
freed, just when the counts are those of a payload sent once. -/
theorem sentOnce_iff {payload : List UInt8} (positive : 0 < n) (length : payload.length = n)
    (calls : List WriteScript) :
    (acceptedBytes payload (counts n calls) <+: payload ∧
        (frees n calls = true → acceptedBytes payload (counts n calls) = payload)) ↔
      SentOnce n (counts n calls) := by
  obtain ⟨k, ⟨kept, full⟩ | ⟨freed, m, less, full⟩⟩ := counts_shape n calls
  · rw [full, kept, (acceptedBytes_prefix_iff positive length positive).1]
    constructor
    · rintro ⟨few, _⟩
      rcases Nat.le_one_iff_eq_zero_or_eq_one.mp few with rfl | rfl
      · exact .inl rfl
      · exact .inr (.inl rfl)
    · intro once
      refine ⟨?_, nofun⟩
      have size : (List.replicate k n).length = k := List.length_replicate
      rcases once with none | one | two
      · rw [none] at size
        exact size ▸ Nat.zero_le 1
      · rw [one] at size
        exact size ▸ le_refl 1
      · have last : (0 : Nat) ∈ List.replicate k n := two ▸ by simp
        have zero := List.eq_of_mem_replicate last
        omega
  · have whole := (acceptedBytes_prefix_iff (k := k) positive length less).2
    rw [full, freed]
    constructor
    · rintro ⟨_, all⟩
      obtain ⟨rfl, rfl⟩ := whole.mp (all rfl)
      exact .inr (.inr rfl)
    · intro once
      have size : (List.replicate k n ++ [m]).length = k + 1 := by simp
      have equal : acceptedBytes payload (List.replicate k n ++ [m]) = payload := by
        apply whole.mpr
        rcases once with none | one | two
        · rw [none] at size
          contradiction
        · have none : k = 0 := by simpa [one, eq_comm] using size
          subst none
          have same : m = n := by simpa using one
          omega
        · have one : k = 1 := by simpa [two, eq_comm] using size
          subst one
          exact ⟨rfl, by simpa using two⟩
      exact ⟨by rw [equal], fun _ => equal⟩

/-- Counts of a payload sent once stay so at every earlier moment. -/
theorem SentOnce.earlier {later earlier : List Nat} (once : SentOnce n later)
    (shorter : earlier <+: later) : SentOnce n earlier := by
  obtain ⟨more, rfl⟩ := shorter
  rcases once with none | one | two
  · exact .inl (List.append_eq_nil_iff.mp none).1
  · rcases List.append_eq_singleton_iff.mp one with ⟨nil, _⟩ | ⟨single, _⟩
    · exact .inl nil
    · exact .inr (.inl single)
  · match earlier, two with
    | [], _ => exact .inl rfl
    | [x], two =>
      obtain ⟨rfl, _⟩ := List.cons.inj two
      exact .inr (.inl rfl)
    | [x, y], two =>
      obtain ⟨rfl, tail⟩ := List.cons.inj two
      obtain ⟨rfl, _⟩ := List.cons.inj tail
      exact .inr (.inr rfl)

/-- A payload accepted by `ServerSend` goes out exactly once, at every moment of any calls of
`event_write` that follow, if and only if the counts `write` returns are none, one full count,
or a full count and then zero. -/
theorem exactlyOnce_iff (s : Server) (c : ConnPtr) (data : Memory) (n : Nat)
    (calls : List WriteScript) (connected : (s.conns c).activity = .connected)
    (isOpen : (s.kernel.sock (s.conns c).fd).isSome = true) (positive : 0 < n)
    (small : n < 2 ^ 31) :
    s.ExactlyOnce c data n calls ↔ SentOnce n (counts n calls) := by
  have length : (data.copy n).length = n := by simp [Memory.copy]
  constructor
  · intro faithful
    obtain ⟨bytes, accepted, earlier, whole⟩ := faithful calls (.last calls)
    obtain ⟨total, freed⟩ := eventWrites_sent data connected isOpen positive small calls
    have equal : bytes = acceptedBytes (data.copy n) (counts n calls) :=
      List.append_cancel_left (accepted.symm.trans total)
    subst equal
    exact (sentOnce_iff positive length calls).mp ⟨earlier, fun free => whole (freed.mpr free)⟩
  · intro once moment reached
    obtain ⟨total, freed⟩ := eventWrites_sent data connected isOpen positive small moment
    obtain ⟨earlier, whole⟩ := (sentOnce_iff positive length moment).mpr
      (once.earlier (reached.counts_earlier n))
    exact ⟨_, total, earlier, fun free => whole (freed.mp free)⟩

/-- A payload of three bytes blocked at first, then written in one piece. -/
theorem exactlyOnce_retried : (Sample.readable []).ExactlyOnce 1 (fun _ => 65) 3
    [[.error .eintr, .error .eagain], [.ok 3]] :=
  (exactlyOnce_iff (Sample.readable []) 1 (fun _ => 65) 3 [[.error .eintr, .error .eagain], [.ok 3]]
    rfl rfl (by decide) (by decide)).mpr (.inr (.inl rfl))

/-- The socket accepts one byte of three, and the buffer is freed with two bytes unsent. -/
theorem exactlyOnce_truncated : ¬∀ (s : Server) (c : ConnPtr) (data : Memory) (n : Nat)
    (calls : List WriteScript), (s.conns c).activity = .connected →
      (s.kernel.sock (s.conns c).fd).isSome = true → 0 < n → n < 2 ^ 31 →
        s.ExactlyOnce c data n calls := by
  intro always
  have faithful := always (Sample.readable []) 1 (fun _ => 65) 3 [[.ok 1]] rfl rfl (by decide)
    (by decide)
  obtain ⟨bytes, accepted, _, whole⟩ := faithful [[.ok 1]] (.last _)
  obtain ⟨total, freed⟩ := eventWrites_sent (s := Sample.readable []) (c := 1) (n := 3)
    (fun _ => 65) rfl rfl (by decide) (by decide) [[.ok 1]]
  have equal : bytes = acceptedBytes (Memory.copy (fun _ => 65) 3) (counts 3 [[.ok 1]]) :=
    List.append_cancel_left (accepted.symm.trans total)
  have all := whole (freed.mpr (by decide))
  rw [equal] at all
  exact absurd all (by decide)

end EpollNet
