import EpollNet.Basis.Outbox
import EpollNet.Verif.Outbound
import EpollNet.Verif.Written

/-!
# Several payloads on one connection

`ServerSend` puts a payload into the connection's one slot and `event_write` sends what is in it.
With a `sendData` that writes its whole buffer and returns zero the connection is an outbox with
one slot, and a `ServerSend` that finds a payload pending takes its place.
-/

namespace EpollNet

open EpollNet.Basis

/-! ## Operations on one connection -/

/-- A whole `ServerSend` of `n` bytes, or a writable event with the answers to its `write`s. -/
inductive SendOp where
  /-- `ServerSend`. -/
  | send (data : Memory) (n : Nat)
  /-- `event_write`. -/
  | writable (script : WriteScript)

/-- The payload bytes a call takes. -/
def SendOp.payload : SendOp → List UInt8
  | .send data n => data.copy n
  | .writable _ => []

/-- The call as an operation on an outbox. -/
def SendOp.outbox : SendOp → Outbox.Op UInt8
  | .send data n => .put (data.copy n)
  | .writable _ => .flush

namespace Server

/-- The call on a connection. -/
def sendOp (s : Server) (c : ConnPtr) : SendOp → Server
  | .send data n => s.serverSend c (some data) n true
  | .writable script => (s.eventWrite c script).2

/-- Several calls in order. -/
def sendOps (s : Server) (c : ConnPtr) (ops : List SendOp) : Server :=
  ops.foldl (fun s op => s.sendOp c op) s

/-- The buffer that waits to be sent. -/
def pending (s : Server) (c : ConnPtr) : Option Buf :=
  if 0 < (s.conns c).sendlen then (s.conns c).sendptr else none

/-- The bytes the connection's descriptor has accepted so far. -/
def written (s : Server) (c : ConnPtr) : List UInt8 :=
  bytesAt (fun fd _ => fd == (s.conns c).fd) s.kernel.trace

/-- A payload is not empty and its length an `int`; a writable event's `sendData` writes its whole
buffer and returns zero. -/
def Whole (s : Server) (c : ConnPtr) : SendOp → Prop
  | .send _ n => 0 < n ∧ n < 2 ^ 31
  | .writable script => ∀ b, s.pending c = some b →
      (sendData (s.conns c) b script s.kernel).ret = some 0 ∧
      (s.sending c b script).written c = s.written c ++ b.bytes

/-- So does every call of a sequence. -/
def AllWhole (s : Server) (c : ConnPtr) : List SendOp → Prop
  | [] => True
  | op :: rest => s.Whole c op ∧ (s.sendOp c op).AllWhole c rest

/-- At every moment of the calls, what the descriptor accepted is the start of the payloads taken
so far, in order, and all of them when none is pending. -/
def Undropped (s : Server) (c : ConnPtr) (ops : List SendOp) : Prop :=
  ∀ moment, moment <+: ops → ∃ bytes,
    (s.sendOps c moment).written c = s.written c ++ bytes ∧
      bytes <+: moment.flatMap SendOp.payload ∧
      ((s.sendOps c moment).pending c = none → bytes = moment.flatMap SendOp.payload)

end Server

variable {s : Server} {c : ConnPtr} {base : List UInt8} {o : Outbox UInt8}

/-! ## The connection as an outbox -/

/-- The connection, connected, does what the outbox does. -/
structure Server.Mirrors (s : Server) (c : ConnPtr) (base : List UInt8) (o : Outbox UInt8) :
    Prop where
  /-- The object is connected. -/
  connected : (s.conns c).activity = .connected
  /-- The pending buffer is the message in the slot. -/
  slot : (s.pending c).map Buf.bytes = o.slot
  /-- What was written is what was sent. -/
  sent : s.written c = base ++ o.sent

/-- `ServerSend` fills the slot. -/
theorem serverSend_stores (data : Memory) {n : Nat} (connected : (s.conns c).activity = .connected)
    (positive : 0 < n) (small : n < 2 ^ 31) :
    (s.serverSend c (some data) n true).conns c =
        { s.conns c with sendptr := some (payloadBuf s data n), sendlen := n } ∧
      (s.serverSend c (some data) n true).written c = s.written c := by
  have goes : (n : Int) > 0 ∧ (s.conns c).activity = .connected := ⟨by omega, connected⟩
  have size : ((n : Int) % 2 ^ 64).toNat = n := by omega
  have stored : (s.serverSend c (some data) n true).conns c =
      { s.conns c with sendptr := some (payloadBuf s data n), sendlen := n } := by
    unfold Server.serverSend Server.serverSendStore
    simp only [goes, and_self, if_true, cStrMalloc, cStrCreate, size, positive, Int.toNat_natCast]
    exact Function.update_self _ _ _
  refine ⟨stored, ?_⟩
  unfold Server.written
  rw [stored]
  unfold Server.serverSend Server.serverSendStore
  simp only [goes, and_self, if_true]
  exact Server.silent_modify _ _ _

/-- A sent payload mirrors a message put into the slot. -/
theorem Server.Mirrors.put (mirrors : s.Mirrors c base o) (data : Memory) {n : Nat}
    (positive : 0 < n) (small : n < 2 ^ 31) :
    (s.sendOp c (.send data n)).Mirrors c base (o.exec (.put (data.copy n))) := by
  obtain ⟨stored, written⟩ := serverSend_stores data mirrors.connected positive small
  refine ⟨?_, ?_, ?_⟩
  · rw [sendOp, stored]
    exact mirrors.connected
  · rw [sendOp, pending, stored]
    simp only [positive, if_true, Option.map_some]
    exact congrArg some (take_payloadBuf s data n)
  · exact written.trans mirrors.sent

/-- A writable event whose `sendData` writes everything mirrors a flush. -/
theorem Server.Mirrors.flush (mirrors : s.Mirrors c base o) {script : WriteScript}
    (whole : s.Whole c (.writable script)) :
    (s.sendOp c (.writable script)).Mirrors c base (o.exec .flush) := by
  have slot := mirrors.slot
  rcases s.eventWrite_cases c script with
    ⟨idle, called⟩ | ⟨b, waits, positive, outcome⟩
  · have none : s.pending c = none := by
      unfold pending
      rcases idle with empty | zero
      · rw [empty, ite_self]
      · rw [zero]
        rfl
    rw [none, Option.map_none] at slot
    have same : o.exec .flush = o := by
      cases o
      cases slot
      simp [Outbox.exec]
    rw [same, sendOp, called]
    exact mirrors
  · have pending : s.pending c = some b := by rw [Server.pending, if_pos positive, waits]
    obtain ⟨returned, accepted⟩ := whole b pending
    rw [pending, Option.map_some] at slot
    rcases outcome with ⟨ret, _⟩ | ⟨ret, _⟩ | ⟨ret, _⟩ | ⟨_, _, _, _, called⟩
    · rw [ret] at returned
      contradiction
    · rw [ret] at returned
      exact absurd (Option.some.inj returned) (by decide)
    · rw [ret] at returned
      exact absurd (Option.some.inj returned) (by decide)
    · rw [sendOp, called]
      have object : ((s.unloaded c b script).epollEventModifyConn c eventReadBits).2.conns c =
          { s.conns c with sendptr := none, sendlen := 0 } := Function.update_self _ _ _
      refine ⟨?_, ?_, ?_⟩
      · rw [object]
        exact mirrors.connected
      · rw [Server.pending, object]
        rfl
      · have sent : ((s.unloaded c b script).epollEventModifyConn c eventReadBits).2.written c =
            (s.sending c b script).written c := by
          unfold written
          rw [object]
          exact Server.silent_modify _ _ _
        rw [sent, accepted, mirrors.sent, Outbox.exec, ← slot, Option.getD_some,
          List.append_assoc]

/-- Calls mirror the operations. -/
theorem Server.Mirrors.run (mirrors : s.Mirrors c base o) {ops : List SendOp}
    (whole : s.AllWhole c ops) :
    (s.sendOps c ops).Mirrors c base (o.run (ops.map SendOp.outbox)) := by
  induction ops generalizing s o with
  | nil => exact mirrors
  | cons op rest ih =>
    obtain ⟨first, later⟩ := whole
    refine ih ?_ later
    cases op with
    | send data n => exact mirrors.put data first.1 first.2
    | writable script => exact mirrors.flush first

/-- A shorter sequence of calls is whole as well. -/
theorem Server.AllWhole.earlier {part ops : List SendOp} (whole : s.AllWhole c ops)
    (earlier : part <+: ops) : s.AllWhole c part := by
  induction part generalizing s ops with
  | nil => trivial
  | cons op rest ih =>
    obtain ⟨more, rfl⟩ := earlier
    exact ⟨whole.1, ih whole.2 (List.prefix_append rest more)⟩

/-- What the outbox took are the payloads. -/
theorem taken_run (o : Outbox UInt8) (ops : List SendOp) :
    (o.run (ops.map SendOp.outbox)).taken = o.taken ++ ops.flatMap SendOp.payload := by
  induction ops generalizing o with
  | nil => simp [Outbox.run]
  | cons op rest ih =>
    rw [List.map_cons, Outbox.run, List.foldl_cons, ← Outbox.run, ih, List.flatMap_cons]
    cases op with
    | send data n => simp [SendOp.outbox, SendOp.payload, Outbox.exec]
    | writable script => simp [SendOp.outbox, SendOp.payload, Outbox.exec]

/-- No payload is empty. -/
theorem Server.AllWhole.messages {ops : List SendOp} (whole : s.AllWhole c ops) :
    ∀ message, Outbox.Op.put message ∈ ops.map SendOp.outbox → message ≠ [] := by
  induction ops generalizing s with
  | nil => exact fun _ member => absurd member List.not_mem_nil
  | cons op rest ih =>
    intro message member
    rcases List.mem_cons.mp member with own | other
    · cases op with
      | send data n =>
        obtain ⟨positive, _⟩ := whole.1
        simp only [SendOp.outbox, Outbox.Op.put.injEq] at own
        rw [own]
        apply List.ne_nil_of_length_pos
        simpa [Memory.copy] using positive
      | writable script => exact absurd own (by simp [SendOp.outbox])
    · exact ih whole.2 message other

/-! ## Any sequence of calls -/

/-- With a `sendData` that writes its whole buffer and returns zero, no payload is dropped in a
sequence of sends and writable events on a connection if and only if no writable event comes after
two sends that have none between them. -/
theorem undropped_iff (s : Server) (c : ConnPtr) (ops : List SendOp)
    (connected : (s.conns c).activity = .connected) (idle : s.pending c = none)
    (whole : s.AllWhole c ops) :
    s.Undropped c ops ↔ Outbox.spaced false (ops.map SendOp.outbox) = true := by
  have mirrors : s.Mirrors c (s.written c) ⟨none, [], []⟩ :=
    ⟨connected, by rw [idle]; rfl, (List.append_nil _).symm⟩
  have exact' : (⟨none, [], []⟩ : Outbox UInt8).Exact := rfl
  have spaced := Outbox.faithful_iff exact' (by simp) whole.messages
  refine Iff.trans ?_ spaced
  -- at one moment the outbox says what was written and what is pending
  have moment : ∀ part, part <+: ops →
      ((∃ bytes, (s.sendOps c part).written c = s.written c ++ bytes ∧
        bytes <+: part.flatMap SendOp.payload ∧
        ((s.sendOps c part).pending c = none → bytes = part.flatMap SendOp.payload)) ↔
      ((⟨none, [], []⟩ : Outbox UInt8).run (part.map SendOp.outbox)).Faithful) := by
    intro part earlier
    have mirrored := mirrors.run (whole.earlier earlier)
    have taken := taken_run ⟨none, [], []⟩ part
    rw [List.nil_append] at taken
    have empty : (s.sendOps c part).pending c = none ↔
        ((⟨none, [], []⟩ : Outbox UInt8).run (part.map SendOp.outbox)).slot = none := by
      rw [← mirrored.slot, Option.map_eq_none_iff]
    unfold Outbox.Faithful
    rw [taken, empty]
    constructor
    · rintro ⟨bytes, accepted, earlier, all⟩
      have equal := List.append_cancel_left (mirrored.sent.symm.trans accepted)
      rw [equal]
      exact ⟨earlier, all⟩
    · exact fun faithful => ⟨_, mirrored.sent, faithful⟩
  constructor
  · intro undropped part earlier
    rw [List.prefix_iff_eq_take.mp earlier, ← List.map_take]
    exact (moment _ (List.take_prefix _ _)).mp (undropped _ (List.take_prefix _ _))
  · intro faithful part earlier
    exact (moment part earlier).mpr (faithful _ (earlier.map SendOp.outbox))

/-- The buffer that waits after a `ServerSend`. -/
theorem pending_serverSend (data : Memory) {n : Nat}
    (connected : (s.conns c).activity = .connected) (positive : 0 < n) (small : n < 2 ^ 31) :
    (s.serverSend c (some data) n true).pending c = some (payloadBuf s data n) := by
  rw [Server.pending, (serverSend_stores data connected positive small).1, if_pos positive]

/-- A payload, its writable event and another payload. -/
theorem undropped_iff_alternating : (Sample.readable []).Undropped 1
    [.send (fun _ => 65) 3, .writable [.ok 3, .ok 0], .send (fun _ => 66) 2] := by
  refine (undropped_iff (Sample.readable []) 1
    [.send (fun _ => 65) 3, .writable [.ok 3, .ok 0], .send (fun _ => 66) 2] rfl rfl
    ⟨⟨by decide, by decide⟩, fun b waits => ?_, ⟨by decide, by decide⟩, trivial⟩).mpr (by decide)
  rw [Server.sendOp, pending_serverSend _ rfl (by decide) (by decide)] at waits
  cases waits
  exact ⟨by decide, by decide⟩

/-- Two payloads and then a writable event: the first payload is never written. -/
theorem payload_overwritten : ¬∀ (s : Server) (c : ConnPtr) (ops : List SendOp),
    (s.conns c).activity = .connected → s.pending c = none → s.AllWhole c ops →
      s.Undropped c ops := by
  intro always
  have undropped := always (Sample.readable []) 1
    [.send (fun _ => 65) 3, .send (fun _ => 66) 2, .writable [.ok 2, .ok 0]] rfl rfl
    ⟨⟨by decide, by decide⟩, ⟨by decide, by decide⟩, fun b waits => by
      rw [Server.sendOp, pending_serverSend _ rfl (by decide) (by decide)] at waits
      cases waits
      exact ⟨by decide, by decide⟩, trivial⟩
  obtain ⟨bytes, written, earlier, _⟩ := undropped _ (List.prefix_refl _)
  have second : ((Sample.readable []).sendOps 1
      [.send (fun _ => 65) 3, .send (fun _ => 66) 2, .writable [.ok 2, .ok 0]]).written 1 =
        (Sample.readable []).written 1 ++ [66, 66] := by decide
  have equal : [66, 66] = bytes := List.append_cancel_left (second.symm.trans written)
  rw [← equal] at earlier
  exact absurd earlier (by decide)

end EpollNet
