import EpollNet.Verif.Custody
import EpollNet.Verif.Outbound
import EpollNet.Verif.SendBuffers
import EpollNet.Verif.Written

/-!
# What becomes of the payloads

Nothing is asked of the senders here: they may overwrite a slot, and a callback may serve a pooled
object. Even so the sockets accept nothing but payloads, in the order in which `ServerSend` took
them for an object. What can happen to one payload is that it goes out any number of times over and
that its last repetition is cut short, with its buffer freed.
-/

namespace EpollNet

open EpollNet.Basis

/-! ## Bytes singled out -/

variable {which which' skipped : Fd → Nat → Bool} {trace : List Call}

/-- What accepted nothing still accepted nothing when less is singled out. -/
theorem bytesAt_nil (narrow : ∀ fd buf, which' fd buf = true → which fd buf = true)
    (none : bytesAt which trace = []) : bytesAt which' trace = [] := by
  rw [bytesAt, List.flatMap_eq_nil_iff] at none ⊢
  intro call member
  have nothing := none call member
  cases call with
  | write fd buf took =>
    simp only [Call.bytesAt] at nothing ⊢
    by_cases singled : which' fd buf = true
    · rw [if_pos (narrow fd buf singled)] at nothing
      rw [nothing, ite_self]
    · rw [if_neg singled]
  | _ => rfl

/-- Only buffers that accepted nothing tell the two selections apart. -/
theorem bytesAt_congr (agree : ∀ fd buf, skipped fd buf = false → which fd buf = which' fd buf)
    (none : bytesAt skipped trace = []) : bytesAt which trace = bytesAt which' trace := by
  rw [bytesAt, List.flatMap_eq_nil_iff] at none
  apply List.flatMap_congr
  intro call member
  have nothing := none call member
  cases call with
  | write fd buf took =>
    simp only [Call.bytesAt] at nothing ⊢
    by_cases skip : skipped fd buf = true
    · have empty : took = [] := by simpa [skip] using nothing
      simp [empty]
    · rw [agree fd buf (by simpa using skip)]
  | _ => rfl

/-! ## One call -/

/-- The payload `ServerSend` copied into a buffer. -/
def Buf.payload (b : Buf) : List UInt8 := b.str.buf.take b.str.len

/-- The payload repeated a number of times, and then cut short. -/
def Buf.repeated (b : Buf) (copies part : Nat) : List UInt8 :=
  (List.replicate copies b.payload).flatten ++ b.payload.take part

/-- A buffer made by `ServerSend`: its length is a positive `int` and it holds that many bytes. -/
structure Buf.Sized (b : Buf) : Prop where
  /-- Not empty. -/
  positive : 0 < b.str.len
  /-- An `int`. -/
  small : b.str.len < 2 ^ 31
  /-- The bytes are there. -/
  whole : b.payload.length = b.str.len

/-- Repetitions behind whole ones. -/
theorem Buf.repeated_append (b : Buf) (earlier copies part : Nat) :
    b.repeated earlier 0 ++ b.repeated copies part = b.repeated (earlier + copies) part := by
  simp only [Buf.repeated, List.take_zero, List.append_nil, ← List.append_assoc,
    ← List.flatten_append, List.replicate_append_replicate]

/-- No repetition at all. -/
theorem Buf.repeated_zero (b : Buf) : b.repeated 0 0 = [] := rfl

/-- The bytes of one `write`. -/
theorem bytesAt_write (k : Kernel) (fd : Fd) (buf : Nat) (took : List UInt8) :
    bytesAt which (k.log (.write fd buf took)).trace =
      bytesAt which k.trace ++ if which fd buf then took else [] := by
  rw [Kernel.log_trace, bytesAt_cons]
  rfl

/-- The calls made the descriptor accept bytes out of one buffer: repetitions of its payload, the
last of them perhaps cut short. -/
def Kernel.Took (k k' : Kernel) (fd : Fd) (b : Buf) (copies part : Nat) : Prop :=
  ∀ which, bytesAt which k'.trace =
    bytesAt which k.trace ++ if which fd b.addr then b.repeated copies part else []

/-- No call, or one in which nothing was accepted. -/
theorem Kernel.took_nothing {k k' : Kernel} {fd : Fd} {b : Buf}
    (silent : ∀ which, Silent which k k') : k.Took k' fd b 0 0 := by
  intro which
  rw [silent which, b.repeated_zero, ite_self, List.append_nil]

/-- Whole repetitions, and then more. -/
theorem Kernel.Took.trans {k k' k'' : Kernel} {fd : Fd} {b : Buf} {earlier copies part : Nat}
    (first : k.Took k' fd b earlier 0) (second : k'.Took k'' fd b copies part) :
    k.Took k'' fd b (earlier + copies) part := by
  intro which
  rw [second which, first which, List.append_assoc, ← b.repeated_append]
  split <;> rfl

/-- Silent calls behind the others. -/
theorem Kernel.Took.silent {k k' k'' : Kernel} {fd : Fd} {b : Buf} {copies part : Nat}
    (took : k.Took k' fd b copies part) (silent : ∀ which, Silent which k' k'') :
    k.Took k'' fd b copies part := by
  intro which
  rw [silent which, took which]

/-- A loop of `sendData` sent repetitions of the payload, and after a part of it returned zero. -/
def SendOutcome.Sent (outcome : SendOutcome) (k : Kernel) (fd : Fd) (b : Buf) : Prop :=
  ∃ copies part, part < b.str.len ∧ k.Took outcome.kernel fd b copies part ∧
    (part ≠ 0 → outcome.ret = some 0)

/-- A loop that sent nothing. -/
theorem SendOutcome.Sent.nothing {outcome : SendOutcome} {k : Kernel} {fd : Fd} {b : Buf}
    (sized : b.Sized) (silent : ∀ which, Kernel.Silent which k outcome.kernel) :
    outcome.Sent k fd b :=
  ⟨0, 0, sized.positive, Kernel.took_nothing silent, fun some => absurd rfl some⟩

/-- A loop that goes on after whole repetitions. -/
theorem SendOutcome.Sent.after {outcome : SendOutcome} {k k' : Kernel} {fd : Fd} {b : Buf}
    {earlier : Nat} (sent : outcome.Sent k' fd b) (first : k.Took k' fd b earlier 0) :
    outcome.Sent k fd b := by
  obtain ⟨copies, part, less, took, last⟩ := sent
  exact ⟨earlier + copies, part, less, first.trans took, last⟩

/-- Every loop of `sendData` is one. -/
theorem sendLoop_sent {fd : Fd} {b : Buf} (sized : b.Sized) (script : WriteScript) (k : Kernel) :
    (sendLoop fd b b.str.len b.str.len script k).Sent k fd b := by
  have positive := sized.positive
  have refused : ∀ k : Kernel, ∀ which, Kernel.Silent which k (k.log (.write fd b.addr [])) :=
    fun k which => k.silent_log _ (by simp [Call.bytesAt])
  induction script generalizing k with
  | nil =>
    have looping : sendLoop fd b b.str.len b.str.len [] k = ⟨none, k⟩ := by
      rw [sendLoop.eq_def]
      exact if_pos positive
    rw [looping]
    exact .nothing sized fun which => .refl k
  | cons answer rest ih =>
    rw [sendLoop_cons positive]
    simp only [Nat.sub_self, List.drop_zero, Kernel.write]
    cases found : k.sock fd with
    | none => exact .nothing sized (refused k)
    | some socket =>
      cases answer with
      | error e =>
        cases e with
        | eintr =>
          exact (ih (k.log (.write fd b.addr []))).after (Kernel.took_nothing (refused k))
        | eagain => exact .nothing sized (refused k)
        | other => exact .nothing sized (refused k)
      | ok m =>
        have length : (b.str.buf.take b.str.len).length = b.str.len := sized.whole
        have took : ∀ m, k.Took (k.log (.write fd b.addr (b.payload.take m))) fd b 0 m :=
          fun m which => bytesAt_write k fd b.addr _
        simp only [length]
        by_cases part : m < b.str.len
        · have fewer : min m b.str.len < b.str.len := by omega
          rw [if_pos fewer]
          exact ⟨0, m, part, took m, fun _ => rfl⟩
        · have full : ¬min m b.str.len < b.str.len := by omega
          have whole : k.Took (k.log (.write fd b.addr (b.payload.take m))) fd b 1 0 := by
            intro which
            have all : b.payload.take m = b.repeated 1 0 := by
              rw [List.take_of_length_le (by rw [sized.whole]; omega)]
              simp [Buf.repeated]
            rw [bytesAt_write, all]
          rw [if_neg full]
          exact (ih _).after whole

/-- One `event_write` with a payload in the slot: repetitions of it, and after a part of it its
buffer is freed. -/
theorem eventWrite_took {s : Server} {c : ConnPtr} {b : Buf} (sized : b.Sized)
    (waits : (s.conns c).sendptr = some b) (length : (s.conns c).sendlen = b.str.len)
    (script : WriteScript) : ∃ copies part, part < b.str.len ∧
      s.kernel.Took (s.eventWrite c script).2.kernel (s.conns c).fd b copies part ∧
      (part ≠ 0 → b.addr ∈ (s.eventWrite c script).2.heap.freed) := by
  have sent : (sendData (s.conns c) b script s.kernel).Sent s.kernel (s.conns c).fd b := by
    rw [sendData, length, asInt_toNat sized.small]
    exact sendLoop_sent sized script s.kernel
  obtain ⟨copies, part, less, took, last⟩ := sent
  refine ⟨copies, part, less, ?_⟩
  -- an attempt that keeps the buffer did not return zero
  have keeps : ∀ ret, (sendData (s.conns c) b script s.kernel).ret = ret → ret ≠ some 0 →
      ∀ freed : List Nat, part ≠ 0 → b.addr ∈ freed := by
    intro ret returned other freed some
    exact absurd (returned.symm.trans (last some)) other
  rcases s.eventWrite_cases c script with
    ⟨idle, _⟩ | ⟨b', waits', _, ⟨ret, called⟩ | ⟨ret, called⟩ | ⟨ret, called⟩ |
      ⟨ret', ret, blocked, failed, called⟩⟩
  · have positive := sized.positive
    rcases idle with none | empty
    · rw [none] at waits
      contradiction
    · omega
  all_goals
    obtain rfl : b' = b := Option.some.inj (waits'.symm.trans waits)
    rw [called]
  · exact ⟨took, keeps _ ret (by simp) _⟩
  · exact ⟨took.silent fun which => Server.silent_modify _ c _, keeps _ ret (by simp) _⟩
  · exact ⟨took.silent fun which => Server.silent_modify _ c _, keeps _ ret (by simp) _⟩
  · exact ⟨took.silent fun which => Server.silent_modify _ c _, fun _ => List.mem_cons_self⟩

/-! ## The payloads of an object -/

/-- The payloads `ServerSend` took for an object in one accept, oldest first. -/
def Server.payloads (s : Server) (c : ConnPtr) (client : Nat) : List Buf :=
  (((s.sent.filter fun entry => entry.1 == c).filter fun entry => entry.2.1 == client).map
    fun entry => entry.2.2).reverse

/-- The buffers among the given ones. -/
def oneOf (bufs : List Buf) : Fd → Nat → Bool := fun _ a => bufs.any fun b => b.addr == a

/-- What sockets may have accepted of a payload: any number of repetitions, the last of them cut
short only if the buffer was freed. -/
def Heap.Repeats (h : Heap) (b : Buf) (bytes : List UInt8) : Prop :=
  ∃ copies part, part < b.str.len ∧ bytes = b.repeated copies part ∧
    (b.addr ∉ h.freed → part = 0)

/-- `ServerSend` is called with an `int`. -/
def IntLengths (_ : State) : Label → Prop
  | .send _ _ len _ => len < 2 ^ 31
  | _ => True

instance (s : State) (l : Label) : Decidable (IntLengths s l) :=
  match l with
  | .send _ _ len _ => inferInstanceAs (Decidable (len < 2 ^ 31))
  | .wait _ | .test | .accept _ | .sockopt _ | .read _ | .push | .post | .write _ | .arrive _
  | .worker _ | .interrupt _ => inferInstanceAs (Decidable True)

variable {s s' : State} {l : Label}

/-- The buffers stored so far, and what the slots hold of them. -/
structure Posted (s : State) : Prop where
  /-- Buffers were allocated in the order they were stored. -/
  descending : (s.srv.sent.map fun entry => entry.2.2.addr).Pairwise (· > ·)
  /-- They were allocated. -/
  below : ∀ entry ∈ s.srv.sent, entry.2.2.addr < s.srv.heap.next
  /-- They hold their payloads. -/
  sized : ∀ entry ∈ s.srv.sent, entry.2.2.Sized
  /-- A slot holds the newest payload of its object, or nothing. -/
  newest : ∀ c, c < s.srv.nconn → ∀ b, (s.srv.conns c).sendptr = some b →
    (∃ client older, (s.srv.sent.filter fun entry => entry.1 == c) = (c, client, b) :: older) ∧
    ((s.srv.conns c).sendlen = 0 ∨ (s.srv.conns c).sendlen = b.str.len)

/-- A step that stores no buffer. -/
theorem Posted.congr (posted : Posted s) (sent : s'.srv.sent = s.srv.sent)
    (next : s.srv.heap.next ≤ s'.srv.heap.next)
    (slots : ∀ c, c < s'.srv.nconn → ∀ b, (s'.srv.conns c).sendptr = some b →
      c < s.srv.nconn ∧ (s.srv.conns c).sendptr = some b ∧
        ((s'.srv.conns c).sendlen = 0 ∨ (s'.srv.conns c).sendlen = (s.srv.conns c).sendlen)) :
    Posted s' := by
  refine ⟨sent ▸ posted.descending, ?_, sent ▸ posted.sized, fun c known b waits => ?_⟩
  · intro entry member
    exact lt_of_lt_of_le (posted.below entry (sent ▸ member)) next
  · obtain ⟨before, ptr, length⟩ := slots c known b waits
    obtain ⟨newest, size⟩ := posted.newest c before b ptr
    refine ⟨sent ▸ newest, ?_⟩
    rcases length with zero | same
    · exact .inl zero
    · rwa [same]

/-- A step that replaces one object, the others as they were. -/
theorem Posted.replace {c : ConnPtr} {obj : ConnObj} (posted : Posted s)
    (conns : s'.srv.conns = Function.update s.srv.conns c obj)
    (sent : s'.srv.sent = s.srv.sent) (next : s.srv.heap.next ≤ s'.srv.heap.next)
    (self : c < s'.srv.nconn → ∀ b, obj.sendptr = some b →
      c < s.srv.nconn ∧ (s.srv.conns c).sendptr = some b ∧
        (obj.sendlen = 0 ∨ obj.sendlen = (s.srv.conns c).sendlen))
    (others : ∀ p, p ≠ c → p < s'.srv.nconn → p < s.srv.nconn) : Posted s' := by
  refine posted.congr sent next fun p known b waits => ?_
  by_cases same : p = c
  · rw [same, conns, Function.update_self] at waits
    rw [same, conns, Function.update_self]
    exact self (same ▸ known) b waits
  · rw [conns, Function.update_of_ne same] at waits ⊢
    exact ⟨others p same known, waits, .inr rfl⟩

/-- What `CStr_Malloc` makes of a payload. -/
theorem cStrMalloc_sized {h : Heap} {granted : Bool} {data : Option Memory} {len : Int} {b : Buf}
    (positive : 0 < len) (small : len < 2 ^ 31)
    (made : (cStrMalloc h granted data len).1 = some b) : b.Sized ∧ b.str.len = len.toNat := by
  have size : (len % 2 ^ 64).toNat = len.toNat := by omega
  have some' : 0 < len.toNat := by omega
  cases data with
  | none => contradiction
  | some m =>
    cases granted with
    | false => contradiction
    | true =>
      unfold cStrMalloc cStrCreate at made
      simp only [size, some', if_true, Option.some.injEq] at made
      subst made
      refine ⟨⟨some', by show len.toNat < 2 ^ 31; omega, ?_⟩, rfl⟩
      simp [Buf.payload, Memory.copy]

/-- What `ServerSend` stores in a connected object. -/
theorem send_sized {c : ConnPtr} {data : Option Memory} {len : Int} {granted : Bool} {b : Buf}
    (stepped : EpollNet.step s (.send c data len granted) = some s') (positive : 0 < len)
    (small : len < 2 ^ 31) (connected : (s.srv.conns c).activity = .connected)
    (waits : (s'.srv.conns c).sendptr = some b) : b.Sized ∧ b.str.len = len.toNat := by
  simp only [EpollNet.step] at stepped
  split at stepped
  · obtain rfl := Option.some.inj stepped
    have made : (cStrMalloc s.srv.heap granted data len).1 = some b := by
      rw [← waits]
      simp [Server.serverSend, Server.serverSendStore, positive, connected,
        Server.epollEventModifyConn]
    exact cStrMalloc_sized positive small made
  · contradiction

/-- `ServerSend` fills a slot. -/
theorem Posted.store {c : ConnPtr} {obj : ConnObj} (posted : Posted s)
    (conns : s'.srv.conns = Function.update s.srv.conns c obj)
    (grown : s.srv.heap.Grown s'.srv.heap obj.sendptr) (nconn : s'.srv.nconn = s.srv.nconn)
    (sized : ∀ b, obj.sendptr = some b → b.Sized ∧ b.str.len = obj.sendlen)
    (sent : s'.srv.sent = (match obj.sendptr with
      | some b => (c, s.srv.client c, b) :: s.srv.sent
      | none => s.srv.sent)) : Posted s' := by
  cases made : obj.sendptr with
  | none =>
    rw [made] at sent
    refine posted.replace conns sent grown.le (fun _ b waits => ?_) fun p _ known => nconn ▸ known
    rw [made] at waits
    contradiction
  | some b =>
    rw [made] at sent
    obtain ⟨low, high⟩ := grown.fresh b made
    obtain ⟨whole, length⟩ := sized b made
    refine ⟨?_, fun entry member => ?_, fun entry member => ?_, fun p known b' waits => ?_⟩
    · rw [sent]
      refine List.pairwise_cons.mpr ⟨fun a member => ?_, posted.descending⟩
      obtain ⟨entry, old, rfl⟩ := List.mem_map.mp member
      exact lt_of_lt_of_le (posted.below entry old) low
    · rw [sent] at member
      rcases List.mem_cons.mp member with rfl | old
      · exact high
      · exact lt_of_lt_of_le (posted.below entry old) grown.le
    · rw [sent] at member
      rcases List.mem_cons.mp member with rfl | old
      · exact whole
      · exact posted.sized entry old
    · rw [sent]
      by_cases same : p = c
      · subst same
        rw [conns, Function.update_self] at waits ⊢
        obtain rfl := Option.some.inj (made.symm.trans waits)
        exact ⟨⟨_, _, List.filter_cons_of_pos (by simp)⟩, .inr length.symm⟩
      · rw [conns, Function.update_of_ne same] at waits ⊢
        rw [List.filter_cons_of_neg (by simpa using Ne.symm same)]
        exact posted.newest p (nconn ▸ known) b' waits

/-- Every step keeps the buffers in stock. -/
theorem Posted.step (posted : Posted s) (known : Known s) (allowed : IntLengths s l)
    (stepped : EpollNet.step s l = some s') : Posted s' := by
  have slots := step_slots stepped
  cases slots with
  | kept slots books _ next =>
    refine posted.congr books.sent next fun c known b waits => ?_
    exact ⟨books.nconn ▸ known, (slots c).ptr.symm.trans waits, .inr (slots c).len⟩
  | connected _ _ _ conns books heap =>
    refine posted.replace conns books.sent (by rw [heap]) (fun known b waits => ?_)
      fun p _ known => books.nconn ▸ known
    exact ⟨books.nconn ▸ known, waits, .inr rfl⟩
  | retired conns ptr empty _ nconn _ _ sent heap =>
    refine posted.replace conns sent (by rw [heap]) (fun known b waits => ?_)
      fun p _ known => nconn ▸ known
    exact ⟨nconn ▸ known, ptr.symm.trans waits, .inl empty⟩
  | @lent c rest size obj next conns ptr length _ nconn _ _ sent heap =>
    refine posted.replace conns sent (by rw [heap]) (fun exists' b waits => ?_)
      fun p distinct exists' => next.lt_of_ne (nconn ▸ exists') distinct
    have before : c < s.srv.nconn := by
      have waiting : s'.srv.waiting c = some b.addr := by
        simp [Server.waiting, conns, waits]
      exact (waiting_taken known.existing next nconn conns ptr c exists' _ waiting).1
    rw [takenConn_of_lt next before] at ptr length
    exact ⟨before, ptr.symm.trans waits, length.symm⟩
  | unloaded _ _ conns none _ _ books heap =>
    refine posted.replace conns books.sent (by rw [heap]; rfl) (fun _ b waits => ?_)
      fun p _ known => books.nconn ▸ known
    rw [none] at waits
    contradiction
  | @stored c data len granted obj called inside positive connected conns _ length grown nconn _ _
      sent =>
    subst called
    refine posted.store conns grown nconn (fun b made => ?_) sent
    rw [length]
    refine send_sized stepped positive allowed connected ?_
    rw [conns, Function.update_self, made]

/-! ## What was accepted -/

/-- Only `event_write` makes sockets accept bytes. -/
theorem step_silent (stepped : Step s l s') (other : ∀ script, l ≠ .write script) :
    Kernel.Silent which s.srv.kernel s'.srv.kernel := by
  cases stepped with
  | acceptDropped _ _ _ =>
    exact (Kernel.silent_log s.srv.kernel (.opened _) rfl).trans (Server.silent_acceptErr _ _)
  | acceptRefused _ _ _ _ _ =>
    refine Kernel.Silent.trans ?_ (Server.silent_acceptErr _ _)
    exact (Kernel.silent_log s.srv.kernel (.opened _) rfl).trans
      (Kernel.silent_log _ (.epollCtl _) rfl)
  | acceptAdmitted _ _ _ _ =>
    exact (Kernel.silent_log s.srv.kernel (.opened _) rfl).trans
      (Kernel.silent_log _ (.epollCtl _) rfl)
  | sockoptFailed _ _ => exact Kernel.silent_log _ _ rfl
  | sockoptConnected _ _ => exact Kernel.silent_log _ _ rfl
  | sockoptSevered _ _ _ =>
    exact (Kernel.silent_log s.srv.kernel (.getsockopt _) rfl).trans (Kernel.silent_close _ _)
  | readLooping _ _ _ => exact silent_readData ..
  | readEnded _ _ _ => exact (silent_readData ..).trans (Server.silent_hangUp _ _)
  | readFinished _ _ _ _ _ => exact silent_readData ..
  | readItem _ _ _ _ _ _ _ _ => exact silent_readData ..
  | @writeIdle fr c script _ => exact absurd rfl (other script)
  | @writeLooping fr c script b _ _ _ _ => exact absurd rfl (other script)
  | @written fr c script b heap obj flags _ _ _ _ _ _ _ => exact absurd rfl (other script)
  | arrived => exact congrArg (bytesAt which) (Kernel.arrive_trace _ _)
  | sent _ _ _ _ _ _ => exact Server.silent_modify _ _ _
  | worker moved =>
    obtain ⟨_, rqueue, sem, heap, srv⟩ := moved.frame
    rw [srv]
    rfl
  | _ => rfl

/-- What sockets accepted so far of the payloads. -/
structure Outgoing (s : State) : Prop where
  /-- They accepted payloads only. -/
  only : bytesAt (fun fd a => !oneOf (s.srv.sent.map fun entry => entry.2.2) fd a)
    s.srv.kernel.trace = []
  /-- Of each payload, repetitions. -/
  repeats : ∀ entry ∈ s.srv.sent, s.srv.heap.Repeats entry.2.2
    (bytesAt (oneOf [entry.2.2]) s.srv.kernel.trace)
  /-- The payloads of an object came one after the other. -/
  ordered : ∀ c client, bytesAt (oneOf (s.srv.payloads c client)) s.srv.kernel.trace =
    (s.srv.payloads c client).flatMap fun b => bytesAt (oneOf [b]) s.srv.kernel.trace

/-- A payload of an object is one that was stored. -/
theorem mem_payloads {c : ConnPtr} {client : Nat} {b : Buf} :
    b ∈ s.srv.payloads c client ↔ (c, client, b) ∈ s.srv.sent := by
  simp [Server.payloads]

/-- The payloads of an object do not depend on anything else. -/
theorem payloads_congr (sent : s'.srv.sent = s.srv.sent) (c : ConnPtr) (client : Nat) :
    s'.srv.payloads c client = s.srv.payloads c client := by
  rw [Server.payloads, Server.payloads, sent]

/-- A step in which nothing is accepted and nothing stored. -/
theorem Outgoing.quiet (out : Outgoing s)
    (silent : ∀ which, Kernel.Silent which s.srv.kernel s'.srv.kernel)
    (sent : s'.srv.sent = s.srv.sent) (freed : ∀ a ∈ s.srv.heap.freed, a ∈ s'.srv.heap.freed) :
    Outgoing s' := by
  have bytes : ∀ which, bytesAt which s'.srv.kernel.trace = bytesAt which s.srv.kernel.trace :=
    silent
  refine ⟨?_, fun entry member => ?_, fun c client => ?_⟩
  · rw [sent, bytes]
    exact out.only
  · rw [sent] at member
    obtain ⟨copies, part, less, equal, whole⟩ := out.repeats entry member
    exact ⟨copies, part, less, (bytes _).trans equal, fun live => whole fun gone =>
      live (freed _ gone)⟩
  · rw [payloads_congr sent, bytes, out.ordered]
    simp only [bytes]

/-- A buffer is singled out by its address. -/
theorem oneOf_eq_true {bufs : List Buf} {fd : Fd} {a : Nat} :
    oneOf bufs fd a = true ↔ ∃ b ∈ bufs, b.addr = a := by
  simp [oneOf]

/-- Two buffers at one address were stored once. -/
theorem Posted.unique (posted : Posted s) {e f : ConnPtr × Nat × Buf} (first : e ∈ s.srv.sent)
    (second : f ∈ s.srv.sent) (same : e.2.2.addr = f.2.2.addr) : e = f := by
  have distinct : (s.srv.sent.map fun entry => entry.2.2.addr).Nodup :=
    posted.descending.imp fun less => ne_of_gt less
  exact List.inj_on_of_nodup_map distinct first second same

/-- The newest payload of an object comes last, behind others. -/
theorem Posted.payloads_newest (posted : Posted s) {c : ConnPtr} {client : Nat} {b : Buf}
    {older : List (ConnPtr × Nat × Buf)}
    (newest : (s.srv.sent.filter fun entry => entry.1 == c) = (c, client, b) :: older) :
    ∃ before, s.srv.payloads c client = before ++ [b] ∧ ∀ b' ∈ before, b'.addr ≠ b.addr := by
  refine ⟨((older.filter fun entry => entry.2.1 == client).map fun entry => entry.2.2).reverse,
    ?_, fun b' member => ?_⟩
  · rw [Server.payloads, newest, List.filter_cons_of_pos (by simp), List.map_cons,
      List.reverse_cons]
  · have descending : ((c, client, b) :: older).Pairwise fun e f => e.2.2.addr > f.2.2.addr := by
      rw [← newest]
      exact (List.pairwise_map.mp posted.descending).sublist List.filter_sublist
    obtain ⟨entry, old, rfl⟩ := List.mem_map.mp (List.mem_reverse.mp member)
    have less := List.rel_of_pairwise_cons descending (List.mem_of_mem_filter old)
    exact ne_of_lt less

/-- A step in which a socket accepts repetitions of the newest payload of an object. -/
theorem Outgoing.wrote {fd : Fd} {b : Buf} {copies part : Nat} {c : ConnPtr} {client : Nat}
    {older : List (ConnPtr × Nat × Buf)} (out : Outgoing s) (posted : Posted s)
    (newest : (s.srv.sent.filter fun entry => entry.1 == c) = (c, client, b) :: older)
    (live : b.addr ∉ s.srv.heap.freed) (took : s.srv.kernel.Took s'.srv.kernel fd b copies part)
    (less : part < b.str.len) (last : part ≠ 0 → b.addr ∈ s'.srv.heap.freed)
    (sent : s'.srv.sent = s.srv.sent) (freed : ∀ a ∈ s.srv.heap.freed, a ∈ s'.srv.heap.freed) :
    Outgoing s' := by
  have member : (c, client, b) ∈ s.srv.sent :=
    List.mem_of_mem_filter (newest ▸ List.mem_cons_self)
  -- what does not contain the buffer accepted nothing
  have apart : ∀ which : Fd → Nat → Bool, which fd b.addr = false →
      bytesAt which s'.srv.kernel.trace = bytesAt which s.srv.kernel.trace := by
    intro which outside
    rw [took which, outside, if_neg Bool.false_ne_true, List.append_nil]
  have other : ∀ b' : Buf, b'.addr ≠ b.addr →
      bytesAt (oneOf [b']) s'.srv.kernel.trace = bytesAt (oneOf [b']) s.srv.kernel.trace :=
    fun b' distinct => apart _ (by simpa [oneOf] using distinct)
  have self : bytesAt (oneOf [b]) s'.srv.kernel.trace =
      bytesAt (oneOf [b]) s.srv.kernel.trace ++ b.repeated copies part := by
    rw [took, if_pos (by simp [oneOf])]
  refine ⟨?_, fun entry stored => ?_, fun c' client' => ?_⟩
  · rw [sent, apart _ ?_]
    · exact out.only
    · have inside : oneOf (s.srv.sent.map fun entry => entry.2.2) fd b.addr = true :=
        oneOf_eq_true.mpr ⟨b, List.mem_map.mpr ⟨_, member, rfl⟩, rfl⟩
      rw [inside]
      rfl
  · rw [sent] at stored
    obtain ⟨earlier, part', less', equal, whole⟩ := out.repeats entry stored
    by_cases same : entry.2.2.addr = b.addr
    · obtain rfl := posted.unique stored member same
      obtain rfl := whole live
      refine ⟨earlier + copies, part, less, ?_, fun live' => ?_⟩
      · rw [self, equal, b.repeated_append]
      · by_contra some
        exact live' (last some)
    · refine ⟨earlier, part', less', (other _ same).trans equal, fun live' => whole fun gone => ?_⟩
      exact live' (freed _ gone)
  · rw [payloads_congr sent]
    by_cases own : (c', client') = (c, client)
    · obtain ⟨rfl, rfl⟩ := Prod.mk.inj own
      obtain ⟨before, split, distinct⟩ := posted.payloads_newest newest
      have earlier := out.ordered c' client'
      have inside : oneOf (before ++ [b]) fd b.addr = true := by
        simp [oneOf]
      rw [split] at earlier ⊢
      rw [took, if_pos inside, earlier]
      simp only [List.flatMap_append, List.flatMap_singleton, self, List.append_assoc]
      congr 1
      exact List.flatMap_congr fun b' old => (other b' (distinct b' old)).symm
    · have distinct : ∀ b' ∈ s.srv.payloads c' client', b'.addr ≠ b.addr := by
        intro b' listed same
        have equal := posted.unique (mem_payloads.mp listed) member same
        simp only [Prod.mk.injEq] at equal own
        exact own ⟨equal.1, equal.2.1⟩
      rw [apart _ ?_, out.ordered]
      · exact List.flatMap_congr fun b' listed => (other b' (distinct b' listed)).symm
      · rw [← Bool.not_eq_true, oneOf_eq_true]
        rintro ⟨b', listed, same⟩
        exact distinct b' listed same

/-- A step that stores a new buffer, of which nothing was accepted. -/
theorem Outgoing.store {c : ConnPtr} {b : Buf} (out : Outgoing s) (posted : Posted s)
    (silent : ∀ which, Kernel.Silent which s.srv.kernel s'.srv.kernel)
    (sized : b.Sized) (fresh : s.srv.heap.next ≤ b.addr)
    (sent : s'.srv.sent = (c, s.srv.client c, b) :: s.srv.sent)
    (freed : s'.srv.heap.freed = s.srv.heap.freed) : Outgoing s' := by
  have bytes : ∀ which, bytesAt which s'.srv.kernel.trace = bytesAt which s.srv.kernel.trace :=
    silent
  have apart : ∀ entry ∈ s.srv.sent, entry.2.2.addr ≠ b.addr := fun entry member =>
    ne_of_lt (lt_of_lt_of_le (posted.below entry member) fresh)
  have unsent : ∀ fd, oneOf (s.srv.sent.map fun entry => entry.2.2) fd b.addr = false := by
    intro fd
    rw [← Bool.not_eq_true, oneOf_eq_true]
    rintro ⟨b', listed, same⟩
    obtain ⟨entry, member, rfl⟩ := List.mem_map.mp listed
    exact apart entry member same
  refine ⟨?_, fun entry member => ?_, fun c' client' => ?_⟩
  · rw [bytes]
    refine bytesAt_nil (fun fd a outside => ?_) out.only
    rw [sent, List.map_cons] at outside
    simp only [oneOf, List.any_cons, Bool.not_or, Bool.and_eq_true] at outside ⊢
    exact outside.2
  · rw [sent] at member
    rcases List.mem_cons.mp member with rfl | old
    · refine ⟨0, 0, sized.positive, ?_, fun _ => rfl⟩
      rw [bytes, b.repeated_zero]
      refine bytesAt_nil (fun fd a own => ?_) out.only
      obtain rfl : b.addr = a := by simpa [oneOf] using own
      rw [unsent fd]
      rfl
    · obtain ⟨copies, part, less, equal, whole⟩ := out.repeats entry old
      exact ⟨copies, part, less, (bytes _).trans equal, fun live => whole (freed ▸ live)⟩
  · have older := out.ordered c' client'
    by_cases own : (c', client') = (c, s.srv.client c)
    · obtain ⟨rfl, rfl⟩ := Prod.mk.inj own
      have longer : s'.srv.payloads c' (s.srv.client c') =
          s.srv.payloads c' (s.srv.client c') ++ [b] := by
        rw [Server.payloads, sent, List.filter_cons_of_pos (by simp),
          List.filter_cons_of_pos (by simp), List.map_cons, List.reverse_cons]
        rfl
      have none : bytesAt (oneOf [b]) s.srv.kernel.trace = [] := by
        refine bytesAt_nil (fun fd a own' => ?_) out.only
        obtain rfl : b.addr = a := by simpa [oneOf] using own'
        rw [unsent fd]
        rfl
      rw [longer]
      simp only [bytes, List.flatMap_append, List.flatMap_singleton, none, List.append_nil]
      rw [← older]
      refine bytesAt_congr (fun fd a inside => ?_) out.only
      have distinct : a ≠ b.addr := by
        rintro rfl
        rw [unsent fd] at inside
        contradiction
      simp [oneOf, Ne.symm distinct]
    · have same : s'.srv.payloads c' client' = s.srv.payloads c' client' := by
        rw [Server.payloads, Server.payloads, sent]
        by_cases object : c' = c
        · subst object
          have other : ¬s.srv.client c' = client' := by
            rintro rfl
            exact own rfl
          rw [List.filter_cons_of_pos (by simp), List.filter_cons_of_neg (by simpa using other)]
        · rw [List.filter_cons_of_neg (by simpa using Ne.symm object)]
      rw [same]
      simp only [bytes]
      exact older

/-- A step stores no buffer and takes no freed address back, or it is a `ServerSend` that puts a
new buffer into the slot of a connected object. -/
theorem SlotStep.stores (slots : SlotStep s l s') :
    s'.srv.sent = s.srv.sent ∧ (∀ a ∈ s.srv.heap.freed, a ∈ s'.srv.heap.freed) ∨
    ∃ c data len granted b, l = .send c data len granted ∧ 0 < len ∧
      (s.srv.conns c).activity = .connected ∧ (s'.srv.conns c).sendptr = some b ∧
      s.srv.heap.next ≤ b.addr ∧ s'.srv.sent = (c, s.srv.client c, b) :: s.srv.sent ∧
      s'.srv.heap.freed = s.srv.heap.freed := by
  cases slots with
  | kept _ books freed _ => exact .inl ⟨books.sent, freed⟩
  | connected _ _ _ _ books heap => exact .inl ⟨books.sent, fun _ gone => heap ▸ gone⟩
  | retired _ _ _ _ _ _ _ sent heap => exact .inl ⟨sent, fun _ gone => heap ▸ gone⟩
  | lent _ _ _ _ _ _ _ _ sent heap => exact .inl ⟨sent, fun _ gone => heap ▸ gone⟩
  | unloaded _ _ _ _ _ _ books heap =>
    exact .inl ⟨books.sent, fun _ gone => heap ▸ List.mem_cons_of_mem _ gone⟩
  | @stored c data len granted obj called _ positive connected conns _ _ grown _ _ _ sent =>
    cases made : obj.sendptr with
    | none =>
      rw [made] at sent
      exact .inl ⟨sent, fun _ gone => grown.freed ▸ gone⟩
    | some b =>
      rw [made] at sent
      have waits : (s'.srv.conns c).sendptr = some b := by
        rw [conns, Function.update_self, made]
      exact .inr ⟨c, data, len, granted, b, called, positive, connected, waits,
        (grown.fresh b made).1, sent, grown.freed⟩

/-- `event_write` goes on with what it leaves. -/
theorem afterWrite_srv (fr : Frame) (left : Bool × Server) :
    (afterWrite s fr left).srv = left.2 := by
  obtain ⟨done, srv⟩ := left
  cases done <;> rfl

/-- The steps of `event_write`. -/
theorem Outgoing.write {script : WriteScript} (out : Outgoing s) (posted : Posted s)
    (known : Known s) (owned : Owned s) (stepped : EpollNet.step s (.write script) = some s') :
    Outgoing s' := by
  have kept := (step_slots stepped).stores
  obtain ⟨sent, freed⟩ := kept.resolve_right (by simp)
  have within := known.within
  simp only [EpollNet.step] at stepped
  split at stepped
  · rename_i fr c at_write
    rw [at_write] at within
    split at stepped
    · obtain rfl := Option.some.inj stepped
      have srv := afterWrite_srv (s := s) fr (s.srv.eventWrite c script)
      rcases s.srv.eventWrite_cases c script with ⟨_, called⟩ | ⟨b, waits, positive, _⟩
      · have same : (afterWrite s fr (s.srv.eventWrite c script)).srv = s.srv := by
          rw [srv, called]
        exact out.quiet (fun which => by rw [same]; rfl) sent freed
      · obtain ⟨⟨client, older, newest⟩, length⟩ := posted.newest c within.1 b waits
        have full : (s.srv.conns c).sendlen = b.str.len := length.resolve_left (by omega)
        have member : (c, client, b) ∈ s.srv.sent :=
          List.mem_of_mem_filter (newest ▸ List.mem_cons_self)
        have live : b.addr ∉ s.srv.heap.freed := by
          intro gone
          have waiting : s.srv.waiting c = some b.addr := by
            rw [Server.waiting, waits]
            rfl
          exact (owned.waiting c within.1 _ waiting).2 (List.mem_append_right _ gone)
        obtain ⟨copies, part, less, took, last⟩ :=
          eventWrite_took (posted.sized _ member) waits full script
        rw [← srv] at took last
        exact out.wrote posted newest live took less last sent freed
    · obtain rfl := Option.some.inj stepped
      exact out.quiet (fun which => .refl _) sent freed
  · contradiction

/-- Every step keeps what was accepted in order. -/
theorem Outgoing.step (out : Outgoing s) (posted : Posted s) (known : Known s) (owned : Owned s)
    (allowed : IntLengths s l) (stepped : EpollNet.step s l = some s') : Outgoing s' := by
  by_cases writes : ∃ script, l = .write script
  · obtain ⟨script, rfl⟩ := writes
    exact out.write posted known owned stepped
  · have silent : ∀ which, Kernel.Silent which s.srv.kernel s'.srv.kernel := fun which =>
      step_silent (step_cases stepped) fun script same => writes ⟨script, same⟩
    rcases (step_slots stepped).stores with ⟨sent, freed⟩ |
      ⟨c, data, len, granted, b, rfl, positive, connected, waits, fresh, sent, freed⟩
    · exact out.quiet silent sent freed
    · have sized := (send_sized stepped positive allowed connected waits).1
      exact out.store posted silent sized fresh sent freed

/-! ## Runs -/

/-- A server starts before anything was accepted. -/
theorem Started.silent (started : Started s) :
    Kernel.Silent which Kernel.initial s.srv.kernel := by
  have listenErr : ∀ srv : Server, Kernel.Silent which srv.kernel srv.listenErr.kernel := by
    intro srv
    rcases listenErr_cases srv with same | ⟨_, closed⟩
    · rw [same]
      exact .refl _
    · rw [closed]
      exact Kernel.silent_close _ _
  have listening : ∀ memory event sock,
      Kernel.Silent which Kernel.initial (Server.listening memory event sock).kernel :=
    fun _ _ _ => Kernel.silent_log _ (.opened _) rfl
  obtain ⟨memory, event, failed | ⟨sock, _, _, failed | ⟨granted, workers, running⟩⟩⟩ :=
    started.cases
  · rw [failed]
    exact listenErr _
  · rw [failed]
    exact (listening memory event sock).trans (listenErr _)
  · rw [running]
    refine (listening memory event sock).trans ?_
    simp only [Server.epollEventAddConn, Kernel.ctlAdd]
    split
    · exact Kernel.silent_log _ (.epollCtl _) rfl
    · exact Kernel.silent_log _ (.epollCtl _) rfl

/-- Nothing was stored either. -/
theorem Started.posted (started : Started s) : Posted s := by
  have sent := started.sent
  refine ⟨sent ▸ .nil, sent ▸ nofun, sent ▸ nofun, fun c known b waits => ?_⟩
  rw [started.nconn] at known
  obtain rfl : c = serverConn := Nat.lt_one_iff.mp known
  rw [started.blank.sendptr] at waits
  contradiction

/-- So nothing is out of order. -/
theorem Started.outgoing (started : Started s) : Outgoing s := by
  have sent := started.sent
  have none : ∀ which, bytesAt which s.srv.kernel.trace = [] := fun _ => started.silent
  refine ⟨none _, sent ▸ nofun, fun c client => ?_⟩
  simp only [none, Server.payloads, sent]
  rfl

/-- In every run the sockets accept nothing but the payloads `ServerSend` took. Those it took for an
object in one accept come in order, each of them any number of times over, and with its last
repetition cut short only once its buffer is freed. -/
theorem payloads_repeated (reached : Reach EpollNet.step IntLengths Started s) (c : ConnPtr)
    (client : Nat) :
    bytesAt (fun fd a => !oneOf (s.srv.sent.map fun entry => entry.2.2) fd a)
        s.srv.kernel.trace = [] ∧
      ∃ blocks, List.Forall₂ s.srv.heap.Repeats (s.srv.payloads c client) blocks ∧
        bytesAt (oneOf (s.srv.payloads c client)) s.srv.kernel.trace = blocks.flatten := by
  have all : Known s ∧ Owned s ∧ Posted s ∧ Outgoing s := by
    apply reached.invariant
    · exact fun _ started => ⟨started.known, started.blank.owned, started.posted, started.outgoing⟩
    · intro s l s' inv allowed stepped
      obtain ⟨known, owned, posted, out⟩ := inv
      have cases' := step_cases stepped
      exact ⟨known.step cases', owned.step known cases', posted.step known allowed stepped,
        out.step posted known owned allowed stepped⟩
  obtain ⟨_, _, _, out⟩ := all
  refine ⟨out.only, (s.srv.payloads c client).map fun b => bytesAt (oneOf [b]) s.srv.kernel.trace,
    ?_, ?_⟩
  · rw [List.forall₂_map_right_iff]
    exact List.forall₂_same.mpr fun b listed => out.repeats _ (mem_payloads.mp listed)
  · rw [out.ordered, ← List.flatMap_def]

/-- Two payloads of one accept: the first goes out twice and then in part, and the second in part
only. -/
theorem payloads_repeated_two : ∃ s : State,
    bytesAt (oneOf (s.srv.payloads 1 1)) s.srv.kernel.trace = [65, 65, 65, 65, 65, 65, 65, 66] ∧
    ∃ blocks, List.Forall₂ s.srv.heap.Repeats (s.srv.payloads 1 1) blocks ∧
      bytesAt (oneOf (s.srv.payloads 1 1)) s.srv.kernel.trace = blocks.flatten := by
  have completed : (runAllowed EpollNet.step IntLengths Sample.start
      (Sample.connecting 4 ++
        [.send 1 (some fun _ => 65) 3 true, .wait [(4, epollOut)], .test, .sockopt (some 0),
          .read (Sample.reading []), .write [.ok 3, .ok 3, .ok 1], .test, .sockopt (some 0),
          .read (Sample.reading [⟨[], .error .eagain⟩]), .write [],
          .send 1 (some fun _ => 66) 2 true, .wait [(4, epollOut)], .test, .sockopt (some 0),
          .read (Sample.reading []), .write [.ok 1]])).map
        (fun s => bytesAt (oneOf (s.srv.payloads 1 1)) s.srv.kernel.trace ==
          [65, 65, 65, 65, 65, 65, 65, 66]) = some true := by
    decide +kernel
  obtain ⟨s, reached, passed⟩ := Reach.exists_of_run Sample.started completed
  exact ⟨s, beq_iff_eq.mp passed, (payloads_repeated reached 1 1).2⟩

end EpollNet
