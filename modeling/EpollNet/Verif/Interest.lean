import EpollNet.Net.Interest
import EpollNet.Verif.Hearing
import EpollNet.Verif.Incarnation
import EpollNet.Verif.Replies

/-!
# Interests follow replies

A client is registered for input while its object has nothing to send, and for output while a reply
waits. In every disciplined run an open client is registered for exactly one of the two. A reply
waits without the interest in output only behind a failed `write` to that client, and there is an
interest in output without a reply only behind a `ServerSend` that got no buffer for it.
-/

namespace EpollNet

open EpollNet.Basis

variable {s s' : State} {l : Label} {c : ConnPtr} {seen : List Trouble}

/-- The interest of an object's descriptor goes with its slot, but for the troubles seen. -/
structure Server.Follows (s : Server) (c : ConnPtr) (seen : List Trouble) : Prop where
  /-- One interest and not the other. -/
  one : s.kernel.armed (s.conns c).fd = !s.kernel.armedOut (s.conns c).fd
  /-- A reply waits without an interest in output. -/
  stuck : s.Waits c → s.kernel.armedOut (s.conns c).fd = false →
    .writeFailed (s.client c) ∈ seen
  /-- There is an interest in output without a reply. -/
  starved : ¬s.Waits c → s.kernel.armedOut (s.conns c).fd = true →
    .noBuffer (s.client c) ∈ seen

/-- The interest of every client's object goes with its slot. -/
def Following (s : State) (seen : List Trouble) : Prop :=
  ∀ c, c ≠ serverConn → s.srv.roster.Live c → s.srv.Follows c seen

/-! ## One object -/

/-- The same interest and the same slot. -/
theorem Server.Follows.congr {srv srv' : Server} (follows : srv.Follows c seen)
    (fd : (srv'.conns c).fd = (srv.conns c).fd)
    (reg : srv'.kernel.reg (srv.conns c).fd = srv.kernel.reg (srv.conns c).fd)
    (ptr : (srv'.conns c).sendptr = (srv.conns c).sendptr)
    (length : (srv'.conns c).sendlen = (srv.conns c).sendlen)
    (client : srv'.client c = srv.client c) : srv'.Follows c seen := by
  have inp : srv'.kernel.armed (srv'.conns c).fd = srv.kernel.armed (srv.conns c).fd := by
    rw [fd, Kernel.armed, Kernel.armed, reg]
  have out : srv'.kernel.armedOut (srv'.conns c).fd = srv.kernel.armedOut (srv.conns c).fd := by
    rw [fd, Kernel.armedOut, Kernel.armedOut, reg]
  have waits : srv'.Waits c ↔ srv.Waits c := by
    rw [Waits, Waits, ptr, length]
  constructor
  · rw [inp, out]
    exact follows.one
  · rw [out, waits, client]
    exact follows.stuck
  · rw [out, waits, client]
    exact follows.starved

/-- Troubles are not forgotten. -/
theorem Server.Follows.more {srv : Server} {seen' : List Trouble} (follows : srv.Follows c seen)
    (more : ∀ trouble ∈ seen, trouble ∈ seen') : srv.Follows c seen' :=
  ⟨follows.one, fun waits out => more _ (follows.stuck waits out),
    fun idle out => more _ (follows.starved idle out)⟩

/-- A new interest, with what the slot holds then. -/
theorem Server.Follows.new {srv : Server} {mask : BitVec 32}
    (reg : srv.kernel.reg (srv.conns c).fd = some ⟨mask, c⟩)
    (one : hasAny mask epollIn = !hasAny mask epollOut)
    (stuck : srv.Waits c → hasAny mask epollOut = false → .writeFailed (srv.client c) ∈ seen)
    (starved : ¬srv.Waits c → hasAny mask epollOut = true → .noBuffer (srv.client c) ∈ seen) :
    srv.Follows c seen := by
  have inp : srv.kernel.armed (srv.conns c).fd = hasAny mask epollIn := by
    rw [Kernel.armed, reg]
  have out : srv.kernel.armedOut (srv.conns c).fd = hasAny mask epollOut := by
    rw [Kernel.armedOut, reg]
  constructor
  · rw [inp, out]
    exact one
  · rw [out]
    exact stuck
  · rw [out]
    exact starved

/-! ## All objects -/

/-- A step that gives one object a new interest at most. -/
theorem Following.change {seen' : List Trouble} (following : Following s seen)
    (more : ∀ trouble ∈ seen, trouble ∈ seen')
    (conns : ∀ p, p ≠ c → s'.srv.conns p = s.srv.conns p)
    (client : ∀ p, p ≠ c → s'.srv.client p = s.srv.client p)
    (reg : ∀ fd ev, s'.srv.kernel.reg fd = some ev → ev.ptr ≠ c → s.srv.kernel.reg fd = some ev)
    (own : c ≠ serverConn → s'.srv.roster.Live c → s'.srv.Follows c seen') :
    Following s' seen' := by
  intro p different live
  by_cases same : p = c
  · subst same
    exact own different live
  · obtain ⟨ev, registered, named⟩ := live_iff.mp live
    have old := reg _ ev registered (named ▸ same)
    have fd : (s'.srv.conns p).fd = (s.srv.conns p).fd := congrArg ConnObj.fd (conns p same)
    rw [fd] at registered old
    have before := following p different (live_iff.mpr ⟨ev, old, named⟩)
    refine (before.congr fd (registered.trans old.symm) ?_ ?_ (client p same)).more more
    · rw [conns p same]
    · rw [conns p same]

/-- A step that gives nobody a new interest. -/
theorem Following.narrow (following : Following s seen) (conns : s'.srv.conns = s.srv.conns)
    (client : s'.srv.client = s.srv.client)
    (reg : ∀ fd ev, s'.srv.kernel.reg fd = some ev → s.srv.kernel.reg fd = some ev) :
    Following s' seen := by
  apply following.change (c := serverConn) (fun _ => id)
  · exact fun p _ => congrFun conns p
  · exact fun p _ => congrFun client p
  · exact fun fd ev registered _ => reg fd ev registered
  · exact fun different => absurd rfl different

/-- A step that leaves the interests as they are. -/
theorem Following.same (following : Following s seen) (conns : s'.srv.conns = s.srv.conns)
    (client : s'.srv.client = s.srv.client) (reg : s'.srv.kernel.reg = s.srv.kernel.reg) :
    Following s' seen :=
  following.narrow conns client fun _ _ registered => reg ▸ registered

/-! ## One step -/

/-- A change of interest gives the object that asks for it what it asks for, if it owns its
descriptor afterwards, and the others nothing. -/
theorem modify_interest (srv : Server) (c : ConnPtr) (flags : BitVec 32)
    (sound : ∀ fd ev, srv.kernel.reg fd = some ev → (srv.kernel.sock fd).isSome = true) :
    ((srv.epollEventModifyConn c flags).2.roster.Live c →
      (srv.epollEventModifyConn c flags).2.kernel.reg (srv.conns c).fd =
        some ⟨Server.modifyMask flags, c⟩) ∧
    ∀ fd ev, (srv.epollEventModifyConn c flags).2.kernel.reg fd = some ev → ev.ptr ≠ c →
      srv.kernel.reg fd = some ev := by
  rw [live_iff]
  simp only [Server.epollEventModifyConn, Kernel.ctlMod]
  split
  · refine ⟨fun _ => Function.update_self _ _ _, fun fd ev registered other => ?_⟩
    by_cases same : fd = (srv.conns c).fd
    · rw [same] at registered
      have own := (Function.update_self _ _ _).symm.trans registered
      exact absurd (congrArg EpollEvent.ptr (Option.some.inj own)).symm other
    · exact (Function.update_of_ne same _ _).symm.trans registered
  · rename_i refused
    refine ⟨fun live => ?_, fun _ _ registered _ => registered⟩
    obtain ⟨ev, registered, _⟩ := live
    have known : srv.kernel.reg (srv.conns c).fd = some ev := registered
    have isOpen := sound _ ev known
    exact absurd (by simp [isOpen, known]) refused

/-- A registered descriptor is open. -/
theorem Orderly.registered_open (orderly : Orderly s) (fd : Fd) (ev : EpollEvent)
    (registered : s.srv.kernel.reg fd = some ev) : (s.srv.kernel.sock fd).isSome = true :=
  orderly.kept.sound.isOpen fd ev.ptr (by simp [registered])

/-- An object whose slot may have changed asks for an interest. -/
theorem Following.asked {srv : Server} {flags : BitVec 32} {seen' : List Trouble}
    (following : Following s seen) (called : s'.srv = (srv.epollEventModifyConn c flags).2)
    (orderly : Orderly s) (more : ∀ trouble ∈ seen, trouble ∈ seen')
    (reg : srv.kernel.reg = s.srv.kernel.reg)
    (isOpen : ∀ fd, (srv.kernel.sock fd).isSome = (s.srv.kernel.sock fd).isSome)
    (others : ∀ p, p ≠ c → srv.conns p = s.srv.conns p) (client : srv.client = s.srv.client)
    (one : hasAny (Server.modifyMask flags) epollIn = !hasAny (Server.modifyMask flags) epollOut)
    (stuck : srv.Waits c → hasAny (Server.modifyMask flags) epollOut = false →
      .writeFailed (s.srv.client c) ∈ seen')
    (starved : ¬srv.Waits c → hasAny (Server.modifyMask flags) epollOut = true →
      .noBuffer (s.srv.client c) ∈ seen') : Following s' seen' := by
  have sound : ∀ fd ev, srv.kernel.reg fd = some ev → (srv.kernel.sock fd).isSome = true := by
    intro fd ev registered
    rw [reg] at registered
    rw [isOpen]
    exact orderly.registered_open fd ev registered
  obtain ⟨own, rest⟩ := modify_interest srv c flags sound
  refine following.change (c := c) more ?_ ?_ ?_ fun _ live => ?_
  · intro p other
    rw [called]
    exact others p other
  · intro p _
    rw [called]
    exact congrFun client p
  · intro fd ev registered other
    rw [called] at registered
    rw [← reg]
    exact rest fd ev registered other
  · rw [called] at live ⊢
    rw [← client] at stuck starved
    exact .new (own live) one stuck starved

/-- `event_write` asks for the interest that goes with what it leaves, unless its `write` fails. -/
theorem Following.write {script : WriteScript} (following : Following s seen)
    (orderly : Orderly s) (stepped : EpollNet.step s (.write script) = some s') :
    Following s' (seen ++ troubles s (.write script)) := by
  have kept : ∀ trouble ∈ seen, trouble ∈ seen ++ troubles s (.write script) :=
    fun _ old => List.mem_append_left _ old
  have quiet : Following s' seen → Following s' (seen ++ troubles s (.write script)) :=
    fun same c different live => (same c different live).more kept
  simp only [EpollNet.step] at stepped
  split at stepped
  · rename_i fr c at_write
    split at stepped
    · rename_i writes
      obtain rfl := Option.some.inj stepped
      have srv := afterWrite_srv (s := s) fr (s.srv.eventWrite c script)
      rcases s.srv.eventWrite_cases c script with ⟨_, called⟩ | ⟨b, waits, positive, outcome⟩
      · have same := srv.trans (congrArg Prod.snd called)
        apply quiet
        apply following.same
        · rw [same]
        · rw [same]
        · rw [same]
      have reg := sendData_reg (s.srv.conns c) b script s.srv.kernel
      have isOpen := (sameTable_sendData (s.srv.conns c) b script s.srv.kernel).isOpen
      have full : (s.srv.sending c b script).Waits c :=
        ⟨by rw [Server.sending, waits]; rfl, positive⟩
      rcases outcome with ⟨_, called⟩ | ⟨_, called⟩ | ⟨failed, called⟩ | ⟨_, _, _, _, called⟩
      -- `sendData` has not returned
      · have after := srv.trans (congrArg Prod.snd called)
        apply quiet
        apply following.same
        · rw [after]
          rfl
        · rw [after]
          rfl
        · rw [after]
          exact reg
      -- it blocked, and the reply is to be sent again
      · refine following.asked (srv.trans (congrArg Prod.snd called)) orderly kept reg isOpen
          (fun _ _ => rfl) rfl (by decide) ?_ ?_
        · exact fun _ out => absurd out (by decide)
        · exact fun idle => absurd full idle
      -- it failed, and the reply is kept
      · refine following.asked (srv.trans (congrArg Prod.snd called)) orderly kept reg isOpen
          (fun _ _ => rfl) rfl (by decide) ?_ ?_
        · intro _ _
          apply List.mem_append_right
          simp only [troubles, at_write, writes, if_true, writeTrouble, waits]
          simp [positive, failed]
        · exact fun idle => absurd full idle
      -- the reply is done with
      · refine following.asked (srv.trans (congrArg Prod.snd called)) orderly kept reg isOpen ?_
          rfl (by decide) ?_ ?_
        · exact fun p other => Function.update_of_ne other _ _
        · exact fun full => absurd full.1 (by simp [Server.unloaded])
        · exact fun _ out => absurd out (by decide)
    · obtain rfl := Option.some.inj stepped
      exact quiet (following.same rfl rfl rfl)
  · contradiction

/-- `ServerSend` asks for output, with a reply in the slot unless it got no buffer. -/
theorem Following.send {data : Option Memory} {len : Int} {granted : Bool}
    (following : Following s seen) (orderly : Orderly s)
    (stepped : EpollNet.step s (.send c data len granted) = some s') :
    Following s' (seen ++ troubles s (.send c data len granted)) := by
  have kept : ∀ trouble ∈ seen, trouble ∈ seen ++ troubles s (.send c data len granted) :=
    fun _ old => List.mem_append_left _ old
  simp only [EpollNet.step] at stepped
  split at stepped
  · obtain rfl := Option.some.inj stepped
    by_cases goes : len > 0 ∧ (s.srv.conns c).activity = .connected
    · obtain ⟨sent, called⟩ := serverSend_connected data granted goes
      refine following.asked called orderly kept rfl (fun _ => rfl) ?_ rfl (by decide) ?_ ?_
      · exact fun p other => Function.update_of_ne other _ _
      · exact fun _ out => absurd out (by decide)
      · intro idle _
        have positive : 0 < len.toNat := by omega
        have refused : (cStrMalloc s.srv.heap granted data len).1 = none := by
          by_contra some'
          apply idle
          simpa [Server.Waits, positive] using Option.isSome_iff_ne_none.mpr some'
        apply List.mem_append_right
        simp [troubles, sendTrouble, goes, refused]
    · have idle : s.srv.serverSend c data len granted = s.srv := by
        simp [Server.serverSend, Server.serverSendStore, goes]
      rw [idle]
      exact fun p different live => (following p different live).more kept
  · contradiction

/-- Closing a descriptor takes an interest away. -/
theorem reg_close {k : Kernel} {x fd : Fd} {ev : EpollEvent}
    (registered : (k.close x).reg fd = some ev) : fd ≠ x ∧ k.reg fd = some ev := by
  by_cases same : fd = x
  · simp [Kernel.close, same] at registered
  · exact ⟨same, (Function.update_of_ne same _ _).symm.trans registered⟩

/-- So does deleting it. -/
theorem reg_ctlDel {k : Kernel} {x fd : Fd} {ev : EpollEvent}
    (registered : (k.ctlDel x).2.reg fd = some ev) : k.reg fd = some ev := by
  unfold Kernel.ctlDel at registered
  split at registered
  · by_cases same : fd = x
    · simp [same] at registered
    · exact (Function.update_of_ne same _ _).symm.trans registered
  · exact registered

/-- Every other step takes interests away, moves an object out of the way, or admits a client, which
is registered for input and has nothing to send. -/
theorem Following.quiet (following : Following s seen) (orderly : Orderly s) (orderly' : Orderly s')
    (current : Current s) (disciplined : Disciplined s l) (stepped : Step s l s')
    (writes : ∀ script, l ≠ .write script)
    (sends : ∀ c data len granted, l ≠ .send c data len granted) : Following s' seen := by
  have pooled : ∀ {c : ConnPtr}, c ∈ s'.srv.pool → ¬s'.srv.roster.Live c :=
    fun idle live => orderly'.kept.sound.live_busy live idle
  have received := fun (c : ConnPtr) (input : Server.ReadInput) =>
    readData_reg (s.srv.conns c) (Server.recvbuffer input.beyond) Server.recvbufferSize
      input.script s.srv.kernel
  cases stepped with
  | @acceptDropped fr input inc _ offered free =>
    rw [Server.dropped, Server.acceptErr_of_ne (disciplined (.ok inc) offered)]
    exact following.narrow rfl rfl fun _ _ registered => (reg_close registered).2
  | @acceptRefused fr input inc c rest nconn _ offered free next _ =>
    have idle : c ∈ (s.srv.refused inc c rest nconn).pool := by
      rw [Server.refused, Server.acceptErr_of_ne (disciplined (.ok inc) offered)]
      simp [Server.setConn, dataQueuePush]
    refine following.change (c := c) (fun _ => id) ?_ ?_ ?_ fun _ live => absurd live (pooled idle)
    · intro p other
      rw [Server.refused_conns, Function.update_of_ne other]
    · intro p other
      rw [(client_refused s.srv c rest nconn (disciplined (.ok inc) offered)).1,
        Function.update_of_ne other]
    · intro fd ev registered _
      rw [Server.refused, Server.acceptErr_of_ne (disciplined (.ok inc) offered)] at registered
      exact (reg_close registered).2
  | @acceptAdmitted fr input inc c rest nconn _ offered free next =>
    refine following.change (c := c) (fun _ => id) ?_ ?_ ?_ fun _ _ => ?_
    · exact fun p other => Function.update_of_ne other _ _
    · exact fun p other => Function.update_of_ne other _ _
    · intro fd ev registered other
      by_cases same : fd = inc.fd
      · have own : (some ⟨Server.acceptMask, c⟩ : Option EpollEvent) = some ev := by
          rw [← registered, same]
          simp [Server.admitted, Kernel.register]
        exact absurd (congrArg EpollEvent.ptr (Option.some.inj own)).symm other
      · exact (Function.update_of_ne same _ _).symm.trans registered
    · have empty : ((s.srv.admitted inc c rest nconn).conns c).sendlen = 0 := by
        simpa [Server.admitted, Server.acceptedConn] using current.taken next
      have reg : (s.srv.admitted inc c rest nconn).kernel.reg
          ((s.srv.admitted inc c rest nconn).conns c).fd = some ⟨Server.acceptMask, c⟩ := by
        simp [Server.admitted, Server.acceptedConn, Kernel.register]
      refine .new reg (by decide) (fun waits _ => ?_) fun _ out => ?_
      · exact absurd waits.2 (by rw [empty]; exact Nat.lt_irrefl 0)
      · exact absurd out (by decide)
  | @sockoptConnected fr c _ _ =>
    refine following.change (c := c) (fun _ => id) ?_ (fun _ _ => rfl) ?_ fun different live => ?_
    · exact fun p other => Function.update_of_ne other _ _
    · exact fun _ _ registered _ => registered
    · have before : s.srv.roster.Live c := by
        obtain ⟨ev, registered, named⟩ := live_iff.mp live
        exact live_iff.mpr ⟨ev, by simpa using registered, named⟩
      refine (following c different before).congr ?_ rfl ?_ ?_ rfl
      · simp
      · simp
      · simp
  | @sockoptSevered fr c val _ _ _ =>
    refine following.change (c := c) (fun _ => id) ?_ (fun _ _ => rfl) ?_ fun _ live => ?_
    · exact fun p other => Function.update_of_ne other _ _
    · exact fun _ _ registered _ => (reg_close registered).2
    · obtain ⟨ev, registered, _⟩ := live_iff.mp live
      exact absurd (by simp [Server.severed]) (reg_close registered).1
  | readLooping _ _ _ => exact following.same rfl rfl (received _ _)
  | @readEnded fr c input at_read _ returned =>
    obtain ⟨_, _, positive⟩ := orderly.reading at_read returned
    have idle : c ∈ ((s.srv.received c input).hangUp c).pool := by
      simp [Server.hangUp_eq positive]
    refine following.change (c := c) (fun _ => id) ?_ ?_ ?_ fun _ live => absurd live (pooled idle)
    · intro p other
      rw [Server.hangUp_eq positive]
      exact Function.update_of_ne other _ _
    · intro p _
      rw [Server.hangUp_eq positive]
      rfl
    · intro fd ev registered _
      rw [Server.hangUp_eq positive] at registered
      have before := reg_ctlDel (reg_close registered).2
      exact (congrFun (received c input) fd).symm.trans before
  | readFinished _ _ _ _ _ => exact following.same rfl rfl (received _ _)
  | readItem _ _ _ _ _ _ _ _ => exact following.same rfl rfl (received _ _)
  | writeIdle _ => exact absurd rfl (writes _)
  | writeLooping _ _ _ _ => exact absurd rfl (writes _)
  | written _ _ _ _ _ _ _ => exact absurd rfl (writes _)
  | arrived => exact following.same rfl rfl (Kernel.arrive_reg _ _)
  | sendIdle => exact absurd rfl (sends _ _ _ _)
  | sent _ _ _ _ _ _ => exact absurd rfl (sends _ _ _ _)
  | worker moved =>
    obtain ⟨_, rqueue, sem, heap, srv⟩ := moved.frame
    apply following.same
    · rw [srv]
    · rw [srv]
    · rw [srv]
  | _ => exact following.same rfl rfl rfl

/-- Every step keeps the interests in step with the slots, but for the troubles it shows. -/
theorem Following.step (following : Following s seen) (orderly : Orderly s) (current : Current s)
    (disciplined : Disciplined s l) (stepped : EpollNet.step s l = some s') :
    Following s' (seen ++ troubles s l) := by
  have cases' := step_cases stepped
  have quiet : (∀ script, l ≠ .write script) →
      (∀ c data len granted, l ≠ .send c data len granted) → troubles s l = [] →
      Following s' (seen ++ troubles s l) := by
    intro writes sends none
    rw [none, List.append_nil]
    exact following.quiet orderly (orderly.step disciplined cases') current disciplined cases'
      writes sends
  cases l with
  | write script => exact following.write orderly stepped
  | send c data len granted => exact following.send orderly stepped
  | _ => exact quiet nofun nofun rfl

/-! ## Runs -/

/-- A server starts with no client. -/
theorem Started.following (started : Started s) : Following s [] := by
  intro c different live
  have known := started.orderly.kept.sound.live_lt live
  rw [Server.roster_size, started.nconn] at known
  exact absurd (Nat.lt_one_iff.mp known) different

/-- In every run in which `accept` never answers zero and nobody sends while the first entry of a
batch is still to be loaded, each open client socket belongs to one object, and is registered for
input or for output and not for both. A reply waits in the object without an interest in output only
if a `write` to this client failed, and there is an interest in output without a reply only if a
`ServerSend` to this client got no buffer. -/
theorem interest_follows_reply {labels : List Label} (started : Started s)
    (path : Path step Disciplined s labels s') {fd : Fd} {sock : Socket}
    (isOpen : s'.srv.kernel.sock fd = some sock) (client : sock.client ≠ 0) :
    ∃ c, (∀ p, s'.srv.roster.owner fd = some p ↔ p = c) ∧ (s'.srv.conns c).fd = fd ∧
      s'.srv.kernel.armed fd = !s'.srv.kernel.armedOut fd ∧
      (s'.srv.Waits c → s'.srv.kernel.armedOut fd = false →
        .writeFailed sock.client ∈ collect step troubles s labels) ∧
      (¬s'.srv.Waits c → s'.srv.kernel.armedOut fd = true →
        .noBuffer sock.client ∈ collect step troubles s labels) := by
  have kept : ∀ s l s', Orderly s ∧ Attributed s ∧ Current s → Disciplined s l →
      EpollNet.step s l = some s' → Orderly s' ∧ Attributed s' ∧ Current s' := by
    intro s l s' inv disciplined stepped
    obtain ⟨orderly, attributed, current⟩ := inv
    have cases' := step_cases stepped
    exact ⟨orderly.step disciplined cases', attributed.step orderly disciplined cases',
      current.step (orderly.servesLent l) (step_slots stepped)⟩
  have here : Orderly s ∧ Attributed s ∧ Current s :=
    ⟨started.orderly, started.attributed, started.current⟩
  have following := path.collects _ Following kept
    (fun s l s' seen inv following disciplined stepped =>
      following.step inv.1 inv.2.2 disciplined stepped) here started.following
  rw [List.nil_append] at following
  obtain ⟨orderly, attributed, _⟩ := path.keeps _ kept here
  have own : s'.srv.kernel.clientOf fd = some sock.client := by
    rw [Kernel.clientOf, isOpen]
    rfl
  obtain ⟨c, different, owned⟩ := attributed.owned fd _ own client
  have live := orderly.kept.sound.owner_live owned
  have handle : (s'.srv.conns c).fd = fd := orderly.kept.sound.carries fd c owned
  have holder : s'.srv.client c = sock.client := by
    have named := (attributed.named fd c owned different).1
    exact Option.some.inj (named.symm.trans own)
  obtain ⟨one, stuck, starved⟩ := following c different live
  rw [handle] at one stuck starved
  rw [holder] at stuck starved
  refine ⟨c, fun p => ⟨fun owns => ?_, fun same => same ▸ owned⟩, handle, one, stuck, starved⟩
  exact Option.some.inj (owns.symm.trans owned)

/-- A reply to the first client whose `write` fails waits while its socket is registered for
input. -/
theorem interest_follows_reply_failed : ∃ labels t c, Path step Disciplined Sample.start labels t ∧
    t.srv.Waits c ∧ t.srv.kernel.armedOut 4 = false ∧
      .writeFailed 1 ∈ collect step troubles Sample.start labels := by
  let labels := Sample.connecting 4 ++ [.send 1 (some fun _ => 65) 3 true, .wait [(4, epollOut)],
    .test, .sockopt (some 0), .read (Sample.reading []), .write [.error .other]]
  have completed : (runAllowed step Disciplined Sample.start labels).map (fun t =>
      decide (t.srv.kernel.sock 4 = some ⟨[], false, 1⟩ ∧ t.srv.kernel.armedOut 4 = false ∧
        (t.srv.kernel.reg 4).map EpollEvent.ptr = some 1 ∧ (t.srv.conns 1).sendptr ≠ none ∧
        (t.srv.conns 1).sendlen = 3)) = some true := by
    decide +kernel
  obtain ⟨t, ran, passed⟩ := Option.map_eq_some_iff.mp completed
  obtain ⟨isOpen, out, owner, waits, length⟩ := of_decide_eq_true passed
  have path := Path.of_runAllowed ran
  obtain ⟨c, only, _, _, stuck, _⟩ := interest_follows_reply Sample.started path isOpen (by decide)
  obtain rfl : 1 = c := (only 1).mp owner
  have full : t.srv.Waits 1 :=
    ⟨Option.isSome_iff_ne_none.mpr waits, by rw [length]; decide⟩
  exact ⟨labels, t, 1, path, full, out, stuck full out⟩

end EpollNet
