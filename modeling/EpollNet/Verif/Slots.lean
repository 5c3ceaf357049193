import EpollNet.Verif.Items

/-!
# What a step does to the send slots

A connection object has one slot for data to be sent: `sendptr` and `sendlen`. `SlotStep` inverts
a step once more, as far as the slots, the states of the objects and the pool are concerned. A
slot is filled by `ServerSend` and emptied by `event_write`; an object that goes back to the pool
keeps its pointer and loses its length.
-/

namespace EpollNet

open EpollNet.Basis

/-! ## The slot of one object -/

/-- The object holds the same slot as another one, and is connected only if that is. -/
structure ConnObj.SameSlot (old new : ConnObj) : Prop where
  /-- Same pointer. -/
  ptr : new.sendptr = old.sendptr
  /-- Same length. -/
  len : new.sendlen = old.sendlen
  /-- Not connected anew. -/
  activity : new.activity = .connected → old.activity = .connected

/-- An object has its own slot. -/
theorem ConnObj.SameSlot.refl (obj : ConnObj) : obj.SameSlot obj := ⟨rfl, rfl, id⟩

/-- An object replaced by one with the same slot. -/
theorem sameSlot_update {conns : ConnPtr → ConnObj} {c : ConnPtr} {obj : ConnObj}
    (same : (conns c).SameSlot obj) (p : ConnPtr) :
    (conns p).SameSlot (Function.update conns c obj p) := by
  by_cases equal : p = c
  · rwa [equal, Function.update_self]
  · rw [Function.update_of_ne equal]
    exact .refl _

namespace Server

/-- Pool, objects, accepts and the buffers of `ServerSend` are what they were. -/
structure SameBooks (s s' : Server) : Prop where
  /-- As many objects. -/
  nconn : s'.nconn = s.nconn
  /-- The same pool. -/
  pool : s'.pool = s.pool
  /-- The same accepts. -/
  client : s'.client = s.client
  /-- The same buffers. -/
  sent : s'.sent = s.sent

/-- A server keeps its own books. -/
theorem SameBooks.refl (s : Server) : s.SameBooks s := ⟨rfl, rfl, rfl, rfl⟩

/-- The end of a connection resets its object, also when there was no descriptor to close. -/
theorem hangUp_conns (s : Server) (c : ConnPtr) :
    ∃ obj, obj.sendptr = (s.conns c).sendptr ∧ obj.sendlen = 0 ∧ obj.activity ≠ .connected ∧
      (s.hangUp c).conns = Function.update s.conns c obj := by
  by_cases positive : 0 < (s.conns c).fd
  · rw [hangUp_eq positive]
    exact ⟨{ s.conns c with activity := .connclosed, fd := -1, sendlen := 0 }, rfl, rfl, by simp,
      rfl⟩
  · refine ⟨connobjReset (s.conns c), rfl, rfl, by simp [connobjReset], ?_⟩
    simp [hangUp, epollEventDelConn, closeConnObj, positive, setConn]

/-- The object of a refused accept is reset. -/
theorem refused_conns (s : Server) (inc : Kernel.Incoming) (c : ConnPtr) (rest : List ConnPtr)
    (nconn : ConnPtr) : (s.refused inc c rest nconn).conns = Function.update s.conns c
      (connobjReset { s.takenConn c with fd := inc.fd, activity := .connecting }) := by
  unfold refused acceptErr
  split <;> simp [setConn, acceptedConn]

end Server

/-! ## Inversion -/

/-- What one step does to the slots. -/
inductive SlotStep (s : State) (l : Label) (s' : State) : Prop
  /-- Every slot stays, and no object is connected anew. -/
  | kept : (∀ p, (s.srv.conns p).SameSlot (s'.srv.conns p)) → s.srv.SameBooks s'.srv →
      (∀ a ∈ s.srv.heap.freed, a ∈ s'.srv.heap.freed) →
      s.srv.heap.next ≤ s'.srv.heap.next → SlotStep s l s'
  /-- The callback connects the object it serves. -/
  | connected {fr : Frame} {c : ConnPtr} : s.reactor = .sockopt fr c → l = .sockopt (some 0) →
      (s.srv.kernel.sock (s.srv.conns c).fd).isSome = true →
      s'.srv.conns = Function.update s.srv.conns c { s.srv.conns c with activity := .connected } →
      s.srv.SameBooks s'.srv → s'.srv.heap = s.srv.heap → SlotStep s l s'
  /-- An object is reset and put into the pool. -/
  | retired {c : ConnPtr} {obj : ConnObj} : s'.srv.conns = Function.update s.srv.conns c obj →
      obj.sendptr = (s.srv.conns c).sendptr → obj.sendlen = 0 → obj.activity ≠ .connected →
      s'.srv.nconn = s.srv.nconn → s'.srv.pool = s.srv.pool ++ [c] → s'.srv.client = s.srv.client →
      s'.srv.sent = s.srv.sent → s'.srv.heap = s.srv.heap → SlotStep s l s'
  /-- An accept takes an object, and keeps it or puts it back. -/
  | lent {c : ConnPtr} {rest : List ConnPtr} {nconn : ConnPtr} {obj : ConnObj} :
      s.srv.roster.Next c rest nconn → s'.srv.conns = Function.update s.srv.conns c obj →
      obj.sendptr = (s.srv.takenConn c).sendptr →
      (obj.sendlen = (s.srv.takenConn c).sendlen ∨ obj.sendlen = 0) → obj.activity ≠ .connected →
      s'.srv.nconn = nconn →
      (s'.srv.pool = rest ∨ s'.srv.pool = rest ++ [c] ∧ obj.sendlen = 0) →
      s'.srv.client = Function.update s.srv.client c (s.srv.kernel.accepted + 1) →
      s'.srv.sent = s.srv.sent → s'.srv.heap = s.srv.heap → SlotStep s l s'
  /-- `event_write` frees the buffer and empties the slot. -/
  | unloaded {fr : Frame} {c : ConnPtr} {b : Buf} {obj : ConnObj} : s.reactor = .write fr c →
      (s.srv.conns c).sendptr = some b → s'.srv.conns = Function.update s.srv.conns c obj →
      obj.sendptr = none → obj.sendlen = 0 → obj.activity = (s.srv.conns c).activity →
      s.srv.SameBooks s'.srv →
      s'.srv.heap = s.srv.heap.free b.addr → SlotStep s l s'
  /-- `ServerSend` fills the slot of a connected object. -/
  | stored {c : ConnPtr} {data : Option Memory} {len : Int} {granted : Bool} {obj : ConnObj} :
      l = .send c data len granted → c < s.srv.nconn → 0 < len →
      (s.srv.conns c).activity = .connected → s'.srv.conns = Function.update s.srv.conns c obj →
      obj.activity = .connected → obj.sendlen = len.toNat →
      s.srv.heap.Grown s'.srv.heap obj.sendptr → s'.srv.nconn = s.srv.nconn →
      s'.srv.pool = s.srv.pool → s'.srv.client = s.srv.client →
      s'.srv.sent = (match obj.sendptr with
        | some b => (c, s.srv.client c, b) :: s.srv.sent
        | none => s.srv.sent) → SlotStep s l s'

variable {s s' : State}

/-- The steps of `ServerSend`. -/
theorem send_slots {c : ConnPtr} {data : Option Memory} {len : Int} {granted : Bool}
    (known : c < s.srv.nconn) : SlotStep s (.send c data len granted)
      { s with srv := s.srv.serverSend c data len granted } := by
  unfold Server.serverSend Server.serverSendStore
  by_cases goes : len > 0 ∧ (s.srv.conns c).activity = .connected
  · rw [if_pos goes]
    exact .stored rfl known goes.1 goes.2 rfl goes.2 rfl (Server.cStrMalloc_grown _ _ _ _) rfl rfl
      rfl rfl
  · rw [if_neg goes]
    exact .kept (fun _ => .refl _) (.refl _) (fun _ => id) (le_refl _)

/-- The steps of `event_write`. -/
theorem write_slots {fr : Frame} {c : ConnPtr} (at_write : s.reactor = .write fr c)
    (script : List (Except Errno Nat)) :
    SlotStep s (.write script) (afterWrite s fr (s.srv.eventWrite c script)) := by
  rcases s.srv.eventWrite_cases c script with
    ⟨_, called⟩ | ⟨b, pending, _, ⟨_, called⟩ | ⟨_, called⟩ | ⟨_, called⟩ | ⟨_, _, _, _, called⟩⟩
  · rw [called]
    exact .kept (fun _ => .refl _) (.refl _) (fun _ => id) (le_refl _)
  · rw [called]
    exact .kept (fun _ => .refl _) ⟨rfl, rfl, rfl, rfl⟩ (fun _ => id) (le_refl _)
  · rw [called]
    exact .kept (fun _ => .refl _) ⟨rfl, rfl, rfl, rfl⟩ (fun _ => id) (le_refl _)
  · rw [called]
    exact .kept (fun _ => .refl _) ⟨rfl, rfl, rfl, rfl⟩ (fun _ => id) (le_refl _)
  · rw [called]
    exact .unloaded at_write pending rfl rfl rfl rfl ⟨rfl, rfl, rfl, rfl⟩ rfl

/-- A worker frees at most what it carries. -/
theorem worker_slots {w : Nat} (moved : WorkerStep s w s') : SlotStep s (.worker w) s' := by
  obtain ⟨_, rqueue, sem, heap, srv⟩ := moved.frame
  have next := le_of_eq (blocks_worker moved).2.symm
  refine .kept (fun p => ?_) (by rw [srv]; exact ⟨rfl, rfl, rfl, rfl⟩) ?_ next
  · rw [srv]
    exact .refl _
  rcases items_worker moved with ⟨_, same⟩ | ⟨item, _, freed⟩
  · rw [same]
    exact fun _ => id
  · rw [freed, freed_item]
    exact fun _ member => List.mem_append_right _ member

/-- `SlotStep` leaves no step out. -/
theorem step_slots {l : Label} (stepped : step s l = some s') : SlotStep s l s' := by
  have cases' := step_cases stepped
  cases cases' with
  | @acceptDropped fr input inc _ _ _ =>
    obtain ⟨kernel, _, dropped⟩ := s.srv.dropped_frame inc
    rw [dropped]
    exact .kept (fun _ => .refl _) ⟨rfl, rfl, rfl, rfl⟩ (fun _ => id) (le_refl _)
  | @acceptRefused fr input inc c rest nconn _ _ _ next _ =>
    obtain ⟨kernel, _, _, _, refused⟩ := s.srv.refused_frame inc c rest nconn
    have conns := s.srv.refused_conns inc c rest nconn
    rw [refused] at conns ⊢
    exact .lent next conns rfl (.inr rfl) (by simp [connobjReset]) rfl (.inr ⟨rfl, rfl⟩) rfl rfl rfl
  | @acceptAdmitted fr input inc c rest nconn _ _ _ next =>
    exact .lent next rfl rfl (.inl rfl) (by simp) rfl (.inl rfl) rfl rfl rfl
  | sockoptConnected at_sockopt isOpen =>
    exact .connected at_sockopt rfl isOpen rfl ⟨rfl, rfl, rfl, rfl⟩ rfl
  | @sockoptSevered fr c val _ _ _ =>
    refine .kept ?_ ⟨rfl, rfl, rfl, rfl⟩ (fun _ => id) (le_refl _)
    exact sameSlot_update ⟨rfl, rfl, by simp⟩
  | @readEnded fr c input _ _ _ =>
    obtain ⟨obj, ptr, len, activity, conns⟩ := (s.srv.received c input).hangUp_conns c
    obtain ⟨kernel, _, _, _, ended⟩ := (s.srv.received c input).hangUp_frame c
    rw [ended] at conns ⊢
    exact .retired conns ptr len activity rfl rfl rfl rfl rfl
  | @readFinished fr c input recvlen heap _ _ _ _ grown =>
    exact .kept (fun _ => .refl _) ⟨rfl, rfl, rfl, rfl⟩ (fun _ member => grown.freed ▸ member)
      grown.le
  | @readItem fr c input recvlen item made _ _ _ _ _ _ grown _ =>
    refine .kept (fun _ => .refl _) ⟨rfl, rfl, rfl, rfl⟩ (fun a member => ?_)
      (Nat.le_succ_of_le grown.le)
    show a ∈ made.freed
    rwa [grown.freed]
  | writeIdle _ => exact .kept (fun _ => .refl _) (.refl _) (fun _ => id) (le_refl _)
  | @writeLooping fr c script b at_write writes _ _ =>
    simp only [step, at_write, writes, if_true, Option.some.injEq] at stepped
    exact stepped ▸ write_slots at_write script
  | @written fr c script b heap obj flags at_write writes _ _ _ _ _ =>
    simp only [step, at_write, writes, if_true, Option.some.injEq] at stepped
    exact stepped ▸ write_slots at_write script
  | sendIdle => exact .kept (fun _ => .refl _) (.refl _) (fun _ => id) (le_refl _)
  | @sent c data len granted heap obj sent known _ _ _ _ _ =>
    simp only [step, known, if_true, Option.some.injEq] at stepped
    exact stepped ▸ send_slots known
  | worker moved => exact worker_slots moved
  | _ => exact .kept (fun _ => .refl _) ⟨rfl, rfl, rfl, rfl⟩ (fun _ => id) (le_refl _)

end EpollNet
