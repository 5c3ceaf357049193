import EpollNet.Verif.Known

/-!
# Who writes

The call history tells which bytes which descriptor accepted out of which buffer. `write` is
called in `event_write` only, on the descriptor of the object it serves and from the buffer in
that object's slot.
-/

namespace EpollNet

open EpollNet.Basis

/-- The bytes a call made a socket accept, if the descriptor and the buffer are among those
singled out. -/
def Call.bytesAt (which : Fd → Nat → Bool) : Call → List UInt8
  | .write fd buf took => if which fd buf then took else []
  | _ => []

/-- The bytes accepted so far for the descriptors and buffers singled out, in order. -/
def bytesAt (which : Fd → Nat → Bool) (trace : List Call) : List UInt8 :=
  trace.reverse.flatMap (Call.bytesAt which)

variable {which : Fd → Nat → Bool}

/-- A later call's bytes come last. -/
theorem bytesAt_cons (call : Call) (trace : List Call) :
    bytesAt which (call :: trace) = bytesAt which trace ++ call.bytesAt which := by
  simp [bytesAt]

namespace Kernel

/-- No byte was accepted for the descriptors and buffers singled out. -/
def Silent (which : Fd → Nat → Bool) (k k' : Kernel) : Prop :=
  bytesAt which k'.trace = bytesAt which k.trace

/-- Nothing is written without a step. -/
theorem Silent.refl (k : Kernel) : Silent which k k := rfl

/-- Two steps that write nothing. -/
theorem Silent.trans {k k' k'' : Kernel} (first : Silent which k k')
    (second : Silent which k' k'') : Silent which k k'' := Eq.trans second first

/-- Calls other than `write` accept nothing. -/
theorem silent_log (k : Kernel) (call : Call) (other : call.bytesAt which = []) :
    Silent which k (k.log call) := by
  unfold Silent
  rw [log_trace, bytesAt_cons, other, List.append_nil]

/-- `read` writes nothing. -/
theorem silent_read (k : Kernel) (fd : Fd) (len : Nat) (answer : Except Errno Nat) :
    Silent which k (k.read fd len answer).2 := by
  unfold read
  split
  · exact silent_log k _ rfl
  · exact silent_log k _ rfl
  · exact silent_log k _ rfl

/-- A change of interest writes nothing. -/
theorem silent_ctlMod (k : Kernel) (fd : Fd) (ev : EpollEvent) :
    Silent which k (k.ctlMod fd ev).2 := by
  unfold ctlMod
  split <;> exact silent_log k _ rfl

/-- The removal of an interest writes nothing. -/
theorem silent_ctlDel (k : Kernel) (fd : Fd) : Silent which k (k.ctlDel fd).2 := by
  unfold ctlDel
  split <;> exact silent_log k _ rfl

/-- `close` writes nothing. -/
theorem silent_close (k : Kernel) (fd : Fd) : Silent which k (k.close fd) := silent_log k _ rfl

/-- A `write` on another descriptor or from another buffer. -/
theorem silent_write {k : Kernel} {fd : Fd} {buf : Nat} (bytes : List UInt8)
    (answer : Except Errno Nat) (other : which fd buf = false) :
    Silent which k (k.write fd buf bytes answer).2 := by
  unfold write
  split <;> exact silent_log k _ (by simp [Call.bytesAt, other])

end Kernel

/-- `readData` writes nothing. -/
theorem silent_readData (c : ConnObj) (ptr : Memory) (len : Nat) (script : List ReadAnswer)
    (k : Kernel) : Kernel.Silent which k (readData c ptr len script k).kernel :=
  readLoop_kernel (P := fun k' => Kernel.Silent which k k')
    (fun k' a same => same.trans (congrArg (bytesAt which) (k'.arrive_trace a)))
    (fun k' answer same => same.trans (k'.silent_read _ _ answer)) script 0 ptr k (.refl k)

/-- `sendData` writes on the connection's descriptor from the buffer it was given. -/
theorem silent_sendData {c : ConnObj} {b : Buf} (script : List (Except Errno Nat)) (k : Kernel)
    (other : which c.fd b.addr = false) :
    Kernel.Silent which k (sendData c b script k).kernel :=
  sendLoop_kernel (P := fun k' => Kernel.Silent which k k')
    (fun _ bytes answer same => same.trans (Kernel.silent_write bytes answer other)) script k
    (.refl k)

namespace Server

variable (s : Server)

/-- `epollEvent_modifyConn` writes nothing. -/
theorem silent_modify (c : ConnPtr) (flags : BitVec 32) :
    Kernel.Silent which s.kernel (s.epollEventModifyConn c flags).2.kernel :=
  s.kernel.silent_ctlMod _ _

/-- The error path of `Server_Accept` writes nothing. -/
theorem silent_acceptErr (fd : Fd) : Kernel.Silent which s.kernel (s.acceptErr fd).kernel := by
  unfold acceptErr
  split
  · exact s.kernel.silent_close fd
  · exact .refl _

/-- The end of a connection writes nothing. -/
theorem silent_hangUp (c : ConnPtr) : Kernel.Silent which s.kernel (s.hangUp c).kernel := by
  have deleted : Kernel.Silent which s.kernel (s.epollEventDelConn c).2.kernel :=
    s.kernel.silent_ctlDel _
  unfold hangUp closeConnObj
  split
  · exact deleted.trans (Kernel.silent_close _ _)
  · exact deleted

end Server

variable {s s' : State} {l : Label}

/-- A step that makes a socket accept bytes is an `event_write` of the object it serves, on that
object's descriptor and from the buffer in its slot. -/
theorem step_writes (stepped : Step s l s') :
    Kernel.Silent which s.srv.kernel s'.srv.kernel ∨
    ∃ fr c b, s.reactor = .write fr c ∧ (s.srv.conns c).sendptr = some b ∧
      0 < (s.srv.conns c).sendlen ∧ which (s.srv.conns c).fd b.addr = true := by
  cases stepped with
  | acceptDropped _ _ _ =>
    exact .inl ((Kernel.silent_log s.srv.kernel (.opened _) rfl).trans
      (Server.silent_acceptErr _ _))
  | acceptRefused _ _ _ _ _ =>
    refine .inl (Kernel.Silent.trans ?_ (Server.silent_acceptErr _ _))
    exact (Kernel.silent_log s.srv.kernel (.opened _) rfl).trans
      (Kernel.silent_log _ (.epollCtl _) rfl)
  | acceptAdmitted _ _ _ _ =>
    exact .inl ((Kernel.silent_log s.srv.kernel (.opened _) rfl).trans
      (Kernel.silent_log _ (.epollCtl _) rfl))
  | sockoptFailed _ _ => exact .inl (Kernel.silent_log _ _ rfl)
  | sockoptConnected _ _ => exact .inl (Kernel.silent_log _ _ rfl)
  | sockoptSevered _ _ _ =>
    exact .inl ((Kernel.silent_log s.srv.kernel (.getsockopt _) rfl).trans
      (Kernel.silent_close _ _))
  | readLooping _ _ _ => exact .inl (silent_readData ..)
  | readEnded _ _ _ => exact .inl ((silent_readData ..).trans (Server.silent_hangUp _ _))
  | readFinished _ _ _ _ _ => exact .inl (silent_readData ..)
  | readItem _ _ _ _ _ _ _ _ => exact .inl (silent_readData ..)
  | @writeLooping fr c script b at_write _ pending positive =>
    cases named : which (s.srv.conns c).fd b.addr with
    | false => exact .inl (silent_sendData script _ named)
    | true => exact .inr ⟨fr, c, b, at_write, pending, positive, named⟩
  | @written fr c script b heap obj flags at_write _ pending positive _ _ _ =>
    cases named : which (s.srv.conns c).fd b.addr with
    | false => exact .inl ((silent_sendData script _ named).trans (Server.silent_modify _ _ _))
    | true => exact .inr ⟨fr, c, b, at_write, pending, positive, named⟩
  | arrived => exact .inl (congrArg (bytesAt which) (Kernel.arrive_trace _ _))
  | sent _ _ _ _ _ _ => exact .inl (Server.silent_modify _ _ _)
  | worker moved =>
    obtain ⟨_, rqueue, sem, heap, srv⟩ := moved.frame
    rw [srv]
    exact .inl rfl
  | _ => exact .inl rfl

end EpollNet
