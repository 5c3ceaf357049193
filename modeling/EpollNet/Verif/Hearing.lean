import EpollNet.Net.Senders
import EpollNet.Verif.Outbound
import EpollNet.Verif.Stale

/-!
# Who still listens to a connection

`ServerSend` takes the interest in input away in its second step, and `event_write` gives it back
once the payload stored in the first is gone. As long as the payload waits when the second step
comes, one of the two always holds of an open connection. An `event_write` between the two steps
that is done with the payload leaves a connection nobody listens to.
-/

namespace EpollNet

open EpollNet.Basis

/-! ## Interests and payloads -/

namespace Server

/-- A payload waits to be sent. -/
def Waits (s : Server) (c : ConnPtr) : Prop :=
  (s.conns c).sendptr.isSome = true ∧ 0 < (s.conns c).sendlen

/-- The object of a client connection that is open. -/
def OpenClient (s : Server) (c : ConnPtr) : Prop :=
  c ≠ serverConn ∧ c < s.nconn ∧ (s.conns c).activity ≠ .connclosed ∧
    (s.kernel.sock (s.conns c).fd).isSome = true

/-- The connection is registered for `EPOLLIN`, or a payload waits and the next `event_write` that
is not blocked registers it. -/
def Hears (s : Server) (c : ConnPtr) : Prop :=
  s.kernel.armed (s.conns c).fd = true ∨
    ∃ b, (s.conns c).sendptr = some b ∧ 0 < (s.conns c).sendlen ∧
      ∀ script ret, (sendData (s.conns c) b script s.kernel).ret = some ret → ret ≠ -2 →
        (s.eventWrite c script).2.kernel.armed (s.conns c).fd = true

end Server

/-- Interests are as they were, or were and are those of one object. -/
def Touches (c : ConnPtr) (k k' : Kernel) : Prop :=
  ∀ fd, k'.reg fd = k.reg fd ∨
    (∀ ev, k.reg fd = some ev → ev.ptr = c) ∧ ∀ ev, k'.reg fd = some ev → ev.ptr = c

/-- Sending and receiving leave the interests. -/
theorem sendData_reg (c : ConnObj) (b : Buf) (script : List (Except Errno Nat)) (k : Kernel) :
    (sendData c b script k).kernel.reg = k.reg :=
  sendLoop_kernel (P := fun k' => k'.reg = k.reg)
    (fun k' bytes answer same => (k'.write_reg _ _ bytes answer).trans same) script k rfl

/-- The receiving loop registers nothing. -/
theorem readData_reg (c : ConnObj) (ptr : Memory) (len : Nat) (script : List ReadAnswer)
    (k : Kernel) : (readData c ptr len script k).kernel.reg = k.reg :=
  readLoop_kernel (P := fun k' => k'.reg = k.reg)
    (fun k' a same => (k'.arrive_reg a).trans same)
    (fun k' answer same => (k'.read_reg _ _ answer).trans same) script 0 ptr k rfl

variable {srv srv' : Server} {senders senders' : List (Option ConnPtr)} {pc pc' : Pc}
  {c : ConnPtr} {obj : ConnObj}

/-! ## The invariant -/

/-- The object the reactor serves owns its descriptor, or nobody does. -/
def Pc.Serves (srv : Server) : Pc → Prop
  | .read _ c => srv.roster.Live c ∨ srv.kernel.sock (srv.conns c).fd = none
  | .push _ c _ | .post _ c | .write _ c =>
    srv.roster.Live c ∨ srv.kernel.reg (srv.conns c).fd = none
  | .blocked | .test _ | .accept _ | .sockopt _ _ | .inHandler | .stopped => True

/-- What holds between any two steps. -/
structure Attentive (srv : Server) (senders : List (Option ConnPtr)) (pc : Pc) : Prop where
  /-- Registered descriptors are open. -/
  sound : ∀ fd ev, srv.kernel.reg fd = some ev → (srv.kernel.sock fd).isSome = true ∧ 0 ≤ fd
  /-- An object that is not closed owns its descriptor. -/
  active : ∀ p, p < srv.nconn → (srv.conns p).activity ≠ .connclosed → srv.roster.Live p
  /-- The owner's interest is in input, or a payload waits. -/
  hears : ∀ p ev, srv.kernel.reg (srv.conns p).fd = some ev → ev.ptr = p →
    hasAny ev.events epollIn = true ∨ srv.Waits p
  /-- A payload has the length that goes with it. -/
  sized : ∀ p, p < srv.nconn → ∀ b, (srv.conns p).sendptr = some b →
    (srv.conns p).sendlen ≤ b.str.buf.length ∧ (srv.conns p).sendlen < 2 ^ 31
  /-- For a thread between its two steps a payload waits, or the descriptor is not registered. -/
  senders : ∀ p, some p ∈ senders → p < srv.nconn ∧
    (srv.roster.Live p ∧ srv.Waits p ∨ srv.kernel.reg (srv.conns p).fd = none)
  /-- The reactor serves an owner, or a descriptor nobody owns. -/
  serves : pc.Serves srv

/-- An owner is registered. -/
theorem live_iff : srv.roster.Live c ↔
    ∃ ev, srv.kernel.reg (srv.conns c).fd = some ev ∧ ev.ptr = c := by
  unfold Roster.Live
  simp [Option.map_eq_some_iff]

/-- A step that changes one object and its own interests. -/
theorem Attentive.change (attentive : Attentive srv senders pc)
    (conns : srv'.conns = Function.update srv.conns c obj)
    (touches : Touches c srv.kernel srv'.kernel)
    (sound : ∀ fd ev, srv'.kernel.reg fd = some ev → (srv'.kernel.sock fd).isSome = true ∧ 0 ≤ fd)
    (grown : srv.nconn ≤ srv'.nconn) (known : ∀ p, p < srv'.nconn → p ≠ c → p < srv.nconn)
    (freed : ∀ p, p ≠ c → some p ∈ senders → srv.kernel.reg (srv.conns p).fd = none →
      srv'.kernel.reg (srv.conns p).fd = none)
    (fewer : ∀ p, some p ∈ senders' → p = c ∨ some p ∈ senders)
    (active : obj.activity ≠ .connclosed → (srv'.kernel.reg obj.fd).map EpollEvent.ptr = some c)
    (hears : ∀ ev, srv'.kernel.reg obj.fd = some ev → ev.ptr = c →
      hasAny ev.events epollIn = true ∨ obj.sendptr.isSome = true ∧ 0 < obj.sendlen)
    (sized : ∀ b, obj.sendptr = some b → obj.sendlen ≤ b.str.buf.length ∧ obj.sendlen < 2 ^ 31)
    (sender : some c ∈ senders' → c < srv'.nconn ∧
      ((srv'.kernel.reg obj.fd).map EpollEvent.ptr = some c ∧
        obj.sendptr.isSome = true ∧ 0 < obj.sendlen ∨ srv'.kernel.reg obj.fd = none))
    (serves : pc'.Serves srv') : Attentive srv' senders' pc' := by
  have own : srv'.conns c = obj := by rw [conns, Function.update_self]
  have other : ∀ p, p ≠ c → srv'.conns p = srv.conns p := fun p distinct => by
    rw [conns, Function.update_of_ne distinct]
  have live : ∀ p, p ≠ c → srv.roster.Live p → srv'.roster.Live p := by
    intro p distinct owner
    obtain ⟨ev, registered, named⟩ := live_iff.mp owner
    refine live_iff.mpr ⟨ev, ?_, named⟩
    rw [other p distinct]
    rcases touches (srv.conns p).fd with same | ⟨before, _⟩
    · exact same.trans registered
    · exact absurd (named.symm.trans (before ev registered)) distinct
  constructor
  · exact sound
  · intro p inside busy
    by_cases same : p = c
    · subst same
      rw [own] at busy
      exact (congrArg (fun o => (srv'.kernel.reg o.fd).map EpollEvent.ptr) own).trans (active busy)
    · rw [other p same] at busy
      exact live p same (attentive.active p (known p inside same) busy)
  · intro p ev registered named
    by_cases same : p = c
    · subst same
      unfold Server.Waits
      rw [own] at registered ⊢
      exact hears ev registered named
    · unfold Server.Waits
      rw [other p same] at registered ⊢
      rcases touches (srv.conns p).fd with kept | ⟨_, after⟩
      · exact attentive.hears p ev (kept ▸ registered) named
      · exact absurd (named.symm.trans (after ev registered)) same
  · intro p inside b waits
    by_cases same : p = c
    · subst same
      rw [own] at waits ⊢
      exact sized b waits
    · rw [other p same] at waits ⊢
      exact attentive.sized p (known p inside same) b waits
  · intro p member
    by_cases same : p = c
    · subst same
      obtain ⟨inside, state⟩ := sender member
      refine ⟨inside, ?_⟩
      unfold Server.Waits Roster.Live
      simp only [Server.roster_owner, Server.roster_handle, own]
      exact state
    · obtain ⟨inside, state⟩ := attentive.senders p ((fewer p member).resolve_left same)
      refine ⟨lt_of_lt_of_le inside grown, ?_⟩
      rcases state with ⟨owner, waits⟩ | none
      · refine .inl ⟨live p same owner, ?_⟩
        unfold Server.Waits
        rw [other p same]
        exact waits
      · right
        rw [other p same]
        exact freed p same ((fewer p member).resolve_left same) none
  · exact serves

/-- A step that leaves objects and interests. -/
theorem Attentive.frame (attentive : Attentive srv senders pc) (conns : srv'.conns = srv.conns)
    (nconn : srv'.nconn = srv.nconn) (reg : srv'.kernel.reg = srv.kernel.reg)
    (isOpen : ∀ fd ev, srv.kernel.reg fd = some ev → (srv.kernel.sock fd).isSome = true →
      (srv'.kernel.sock fd).isSome = true) (serves : pc'.Serves srv') :
    Attentive srv' senders pc' := by
  have live : ∀ p, srv.roster.Live p → srv'.roster.Live p := by
    intro p owned
    rw [live_iff] at owned ⊢
    rwa [conns, reg]
  have waits : ∀ p, srv.Waits p → srv'.Waits p := by
    intro p waits
    unfold Server.Waits
    rwa [conns]
  constructor
  · intro fd ev registered
    rw [reg] at registered
    obtain ⟨opened, positive⟩ := attentive.sound fd ev registered
    exact ⟨isOpen fd ev registered opened, positive⟩
  · intro p inside busy
    rw [conns] at busy
    exact live p (attentive.active p (nconn ▸ inside) busy)
  · intro p ev registered named
    rw [reg, conns] at registered
    exact (attentive.hears p ev registered named).imp_right (waits p)
  · intro p inside
    rw [conns]
    exact attentive.sized p (nconn ▸ inside)
  · intro p member
    obtain ⟨inside, state⟩ := attentive.senders p member
    refine ⟨nconn ▸ inside, state.imp (fun owns => ⟨live p owns.1, waits p owns.2⟩) ?_⟩
    rw [conns, reg]
    exact id
  · exact serves

/-! ## Places -/

/-- The reactor serves what it served when interests and descriptors of objects stay. -/
theorem Pc.Serves.keep (serves : pc.Serves srv) (conns : ∀ p, (srv'.conns p).fd = (srv.conns p).fd)
    (sock : ∀ fd, srv.kernel.sock fd = none → srv'.kernel.sock fd = none)
    (owner : ∀ fd,
      (srv'.kernel.reg fd).map EpollEvent.ptr = (srv.kernel.reg fd).map EpollEvent.ptr) :
    pc.Serves srv' := by
  have live : ∀ p, srv.roster.Live p → srv'.roster.Live p := by
    intro p owned
    unfold Roster.Live at owned ⊢
    simpa only [Server.roster_owner, Server.roster_handle, conns, owner] using owned
  have none : ∀ p, srv.kernel.reg (srv.conns p).fd = none →
      srv'.kernel.reg (srv'.conns p).fd = none := by
    intro p unregistered
    have same := owner (srv.conns p).fd
    rw [unregistered, Option.map_none, Option.map_eq_none_iff] at same
    rw [conns, same]
  cases pc with
  | read fr p => exact serves.imp (live p) fun closed => conns p ▸ sock _ closed
  | push fr p item => exact serves.imp (live p) (none p)
  | post fr p => exact serves.imp (live p) (none p)
  | write fr p => exact serves.imp (live p) (none p)
  | _ => trivial

/-- A callback that returns serves nobody. -/
theorem serves_resume (fr : Frame) : fr.resume.Serves srv :=
  resume_between (motive := fun pc => pc.Serves srv) (fun _ => trivial) trivial fr

/-- A test that is evaluated serves nobody yet. -/
theorem serves_dispatch (fr : Frame) (event : Nat → EpollEvent) :
    (fr.dispatch event).Serves srv :=
  dispatch_between (motive := fun pc => pc.Serves srv) (fun _ => trivial) (fun _ _ => trivial)
    (fun _ => trivial) trivial fr event

/-! ## Interests changed -/

/-- An interest stored for an owner, or for a descriptor nobody is registered for, is the owner's
own. -/
theorem modify_reg (attentive : Attentive srv senders pc) {k : Kernel}
    (reg : k.reg = srv.kernel.reg) (isOpen : ∀ fd, (k.sock fd).isSome = (srv.kernel.sock fd).isSome)
    (owns : srv.roster.Live c ∨ srv.kernel.reg (srv.conns c).fd = none) (ev : EpollEvent)
    (named : ev.ptr = c) :
    Touches c srv.kernel (k.ctlMod (srv.conns c).fd ev).2 ∧
      (∀ fd old, (k.ctlMod (srv.conns c).fd ev).2.reg fd = some old →
        ((k.ctlMod (srv.conns c).fd ev).2.sock fd).isSome = true ∧ 0 ≤ fd) ∧
      (srv.kernel.reg (srv.conns c).fd = none →
        (k.ctlMod (srv.conns c).fd ev).2.reg = srv.kernel.reg) ∧
      (srv.roster.Live c → (k.ctlMod (srv.conns c).fd ev).2.reg =
        Function.update srv.kernel.reg (srv.conns c).fd (some ev)) := by
  rcases owns with owner | none
  · obtain ⟨old, registered, mine⟩ := live_iff.mp owner
    obtain ⟨opened, positive⟩ := attentive.sound _ old registered
    have changed : (k.ctlMod (srv.conns c).fd ev).2.reg =
        Function.update srv.kernel.reg (srv.conns c).fd (some ev) := by
      simp [Kernel.ctlMod, reg, isOpen, opened, registered, Kernel.register]
    refine ⟨fun fd => ?_, fun fd new => ?_, fun none => ?_, fun _ => changed⟩
    · rw [changed]
      by_cases same : fd = (srv.conns c).fd
      · right
        rw [same, Function.update_self, registered]
        exact ⟨fun _ equal => Option.some.inj equal ▸ mine, fun _ equal =>
          Option.some.inj equal ▸ named⟩
      · exact .inl (Function.update_of_ne same _ _)
    · rw [changed, Kernel.ctlMod_sock, isOpen]
      by_cases same : fd = (srv.conns c).fd
      · exact fun _ => same ▸ ⟨opened, positive⟩
      · rw [Function.update_of_ne same]
        exact attentive.sound fd new
    · rw [none] at registered
      contradiction
  · have failed : (k.ctlMod (srv.conns c).fd ev).2.reg = srv.kernel.reg := by
      simp [Kernel.ctlMod, reg, none]
    refine ⟨fun fd => .inl (congrFun failed fd), fun fd new => ?_, fun _ => failed, fun owner => ?_⟩
    · rw [failed, Kernel.ctlMod_sock, isOpen]
      exact attentive.sound fd new
    · obtain ⟨old, registered, _⟩ := live_iff.mp owner
      rw [none] at registered
      contradiction

/-- A registration change on an object whose send fields may change first. With the object owning
its descriptor, the new interest is in input or a payload waits. -/
theorem Attentive.modify (attentive : Attentive srv senders pc) (obj : ConnObj) {k : Kernel}
    {heap : Heap} {flags : BitVec 32} (inside : c < srv.nconn) (reg : k.reg = srv.kernel.reg)
    (isOpen : ∀ fd, (k.sock fd).isSome = (srv.kernel.sock fd).isSome)
    (owns : srv.roster.Live c ∨ srv.kernel.reg (srv.conns c).fd = none)
    (fd : obj.fd = (srv.conns c).fd) (activity : obj.activity = (srv.conns c).activity)
    (sized : ∀ b, obj.sendptr = some b → obj.sendlen ≤ b.str.buf.length ∧ obj.sendlen < 2 ^ 31)
    (hears : srv.roster.Live c → hasAny (Server.modifyMask flags) epollIn = true ∨
      obj.sendptr.isSome = true ∧ 0 < obj.sendlen)
    (fewer : ∀ p, some p ∈ senders' → some p ∈ senders)
    (sender : some c ∈ senders' → srv.roster.Live c → obj.sendptr.isSome = true ∧ 0 < obj.sendlen)
    (serves : pc'.Serves
      (({ srv with kernel := k, heap, conns := Function.update srv.conns c obj } :
        Server).epollEventModifyConn c flags).2) :
    Attentive (({ srv with kernel := k, heap, conns := Function.update srv.conns c obj } :
      Server).epollEventModifyConn c flags).2 senders' pc' := by
  obtain ⟨touches, sound, failed, changed⟩ :=
    modify_reg attentive reg isOpen owns ⟨Server.modifyMask flags, c⟩ rfl
  have number : (Function.update srv.conns c obj c).fd = (srv.conns c).fd := by
    rw [Function.update_self, fd]
  have kernel : (({ srv with kernel := k, heap, conns := Function.update srv.conns c obj } :
      Server).epollEventModifyConn c flags).2.kernel =
        (k.ctlMod (srv.conns c).fd ⟨Server.modifyMask flags, c⟩).2 := by
    show (k.ctlMod (Function.update srv.conns c obj c).fd _).2 = _
    rw [number]
  have stays : srv.roster.Live c →
      ((k.ctlMod (srv.conns c).fd ⟨Server.modifyMask flags, c⟩).2.reg obj.fd).map EpollEvent.ptr =
        some c := by
    intro owner
    rw [changed owner, fd, Function.update_self]
    rfl
  refine attentive.change rfl ?_ ?_ (le_refl _) (fun _ known _ => known) ?_
    (fun p member => .inr (fewer p member)) ?_ ?_ sized ?_ serves
  · rw [kernel]
    exact touches
  · rw [kernel]
    exact sound
  · intro p _ _ none
    rw [kernel]
    rcases owns with owner | unregistered
    · rw [changed owner]
      rw [Function.update_of_ne, none]
      intro same
      obtain ⟨old, registered, _⟩ := live_iff.mp owner
      rw [← same, none] at registered
      contradiction
    · rw [failed unregistered, none]
  · intro busy
    rw [kernel]
    exact stays (attentive.active c inside (activity ▸ busy))
  · intro ev registered named
    rw [kernel] at registered
    rcases owns with owner | unregistered
    · rw [changed owner, fd, Function.update_self] at registered
      obtain rfl := Option.some.inj registered
      exact hears owner
    · rw [failed unregistered, fd, unregistered] at registered
      contradiction
  · intro member
    refine ⟨inside, ?_⟩
    rw [kernel]
    rcases owns with owner | unregistered
    · exact .inl ⟨stays owner, sender member owner⟩
    · right
      rw [failed unregistered, fd, unregistered]

/-! ## Steps of the reactor -/

/-- The object whose `event_write` is about to run. -/
def Pc.writing : Pc → Option ConnPtr
  | .write fr c => if hasAny eventWriteBits fr.events then some c else none
  | _ => none

/-- While a `ServerSend` is between its two steps, no `write` on its connection accepts only a part
of the payload, and neither its object nor the number in it goes to another client. No callback
finds an open descriptor in an object that does not own it. -/
def Heeds (s : Split) : SplitLabel → Prop
  | .base (.sockopt _) => ∀ c ∈ s.base.reactor.called,
      (s.base.srv.kernel.sock (s.base.srv.conns c).fd).isSome = true → s.base.srv.roster.Live c
  | .base (.accept input) => ∀ sender ∈ s.senders, ∀ c ∈ sender, ∀ answer ∈ input.script,
      ∀ fd ∈ answer.toOption.map Kernel.Incoming.fd,
        s.base.srv.pool.head? ≠ some c ∧ fd ≠ (s.base.srv.conns c).fd
  | .base (.write script) => ∀ c ∈ s.base.reactor.writing, some c ∈ s.senders →
      callFrees (s.base.srv.conns c).sendlen script = false
  | _ => True

instance (s : Split) (l : SplitLabel) : Decidable (Heeds s l) :=
  match l with
  | .base (.sockopt _) => inferInstanceAs (Decidable (∀ c ∈ s.base.reactor.called,
      (s.base.srv.kernel.sock (s.base.srv.conns c).fd).isSome = true →
        (s.base.srv.kernel.reg (s.base.srv.conns c).fd).map EpollEvent.ptr = some c))
  | .base (.accept input) => inferInstanceAs (Decidable (∀ sender ∈ s.senders, ∀ c ∈ sender,
      ∀ answer ∈ input.script, ∀ fd ∈ answer.toOption.map Kernel.Incoming.fd,
        s.base.srv.pool.head? ≠ some c ∧ fd ≠ (s.base.srv.conns c).fd))
  | .base (.write script) => inferInstanceAs (Decidable (∀ c ∈ s.base.reactor.writing,
      some c ∈ s.senders → callFrees (s.base.srv.conns c).sendlen script = false))
  | .base (.wait _) | .base .test | .base (.read _) | .base .push | .base .post | .base (.arrive _)
  | .base (.send _ _ _ _) | .base (.worker _) | .base (.interrupt _) | .store _ _ _ _
  | .modify _ => inferInstanceAs (Decidable True)

variable {s : State}

/-- `event_write` keeps the invariant unless it is done with a payload between the two steps of a
`ServerSend`. -/
theorem Attentive.write {fr : Frame} (attentive : Attentive s.srv senders s.reactor)
    (at_write : s.reactor = .write fr c) (inside : c < s.srv.nconn) (script : WriteScript)
    (keeps : some c ∈ senders → callFrees (s.srv.conns c).sendlen script = false) :
    Attentive (afterWrite s fr (s.srv.eventWrite c script)).srv senders
      (afterWrite s fr (s.srv.eventWrite c script)).reactor := by
  have owns : s.srv.roster.Live c ∨ s.srv.kernel.reg (s.srv.conns c).fd = none := by
    have serves := attentive.serves
    rwa [at_write] at serves
  rcases s.srv.eventWrite_cases c script with ⟨_, called⟩ | ⟨b, waits, positive, outcome⟩
  · rw [called]
    exact attentive.frame rfl rfl rfl (fun _ _ _ => id) (serves_resume fr)
  have table := sameTable_sendData (s.srv.conns c) b script s.srv.kernel
  have sized := attentive.sized c inside
  have full : (s.srv.conns c).sendptr.isSome = true ∧ 0 < (s.srv.conns c).sendlen :=
    ⟨by rw [waits]; rfl, positive⟩
  -- an attempt that keeps the payload
  have blocked : ∀ flags, Attentive
      ((s.srv.sending c b script).epollEventModifyConn c flags).2 senders fr.resume := by
    intro flags
    rw [Server.sending_eq]
    exact attentive.modify _ inside (sendData_reg ..) table.isOpen owns rfl rfl sized
      (fun _ => .inr full) (fun _ => id) (fun _ _ => full) (serves_resume fr)
  rcases outcome with ⟨_, called⟩ | ⟨_, called⟩ | ⟨_, called⟩ | ⟨ret, returned, notAgain, notFailed,
    called⟩
  · rw [called]
    exact attentive.frame rfl rfl (sendData_reg ..) (fun fd _ _ => by rw [← table.isOpen]; exact id)
      trivial
  · rw [called]
    exact blocked _
  · rw [called]
    exact blocked _
  · rw [called]
    refine attentive.modify { s.srv.conns c with sendptr := none, sendlen := 0 } inside
      (sendData_reg ..) table.isOpen owns rfl rfl (fun _ none => absurd none (by simp))
      (fun _ => .inl (by decide)) (fun _ => id) (fun member owner => ?_) (serves_resume fr)
    -- the payload a sender counts on is not gone
    obtain ⟨ev, registered, _⟩ := live_iff.mp owner
    have opened := (attentive.sound _ ev registered).1
    obtain ⟨fits, small⟩ := sized b waits
    have length : (b.str.buf.take (s.srv.conns c).sendlen).length = (s.srv.conns c).sendlen := by
      rw [List.length_take, Nat.min_eq_left fits]
    have outcome := (sendLoop_counts positive length script s.srv.kernel opened).2.2
    rw [sendData, asInt_toNat small] at returned
    rw [returned] at outcome
    rcases outcome with ⟨frees, _⟩ | ⟨_, none | again | failed⟩
    · rw [keeps member] at frees
      contradiction
    · contradiction
    · exact absurd (Option.some.inj again) notAgain
    · exact absurd (Option.some.inj failed) notFailed

/-- Closing a descriptor that was accepted and not registered touches nothing else. -/
theorem acceptErr_kernel (srv : Server) (fd : Fd) (unregistered : srv.kernel.reg fd = none) :
    (srv.acceptErr fd).kernel.reg = srv.kernel.reg ∧
      ∀ x, x ≠ fd → (srv.acceptErr fd).kernel.sock x = srv.kernel.sock x := by
  unfold Server.acceptErr
  split
  · refine ⟨funext fun x => ?_, fun x distinct => Function.update_of_ne distinct _ _⟩
    by_cases same : x = fd
    · simp [Kernel.close, same, unregistered]
    · simp [Kernel.close, same]
  · exact ⟨rfl, fun _ _ => rfl⟩

/-- A number that is free is not registered. -/
theorem Attentive.unregistered (attentive : Attentive srv senders pc) {fd : Fd}
    (free : srv.kernel.Free fd) : srv.kernel.reg fd = none := by
  cases registered : srv.kernel.reg fd with
  | none => rfl
  | some ev =>
    have opened := (attentive.sound fd ev registered).1
    rw [free.2.2] at opened
    contradiction

/-- What waits in the object an accept takes has its length. -/
theorem Attentive.taken (attentive : Attentive srv senders pc) (existing : srv.Existing)
    {rest : List ConnPtr} {nconn : ConnPtr} (next : srv.roster.Next c rest nconn) (b : Buf)
    (waits : (srv.takenConn c).sendptr = some b) :
    (srv.takenConn c).sendlen ≤ b.str.buf.length ∧ (srv.takenConn c).sendlen < 2 ^ 31 := by
  cases next with
  | pooled queue =>
    rw [Server.roster_pool] at queue
    have member : c ∈ srv.pool := queue ▸ List.mem_cons_self
    rw [Server.takenConn, if_neg (List.ne_nil_of_mem member)] at waits ⊢
    exact attentive.sized c (existing.pooled c member) b waits
  | fresh queue =>
    rw [Server.roster_pool] at queue
    rw [Server.takenConn, if_pos queue] at waits
    contradiction

/-- An accept that gives an object a number, registered for it or not at all. -/
theorem Attentive.accept (attentive : Attentive srv senders pc) (existing : srv.Existing)
    {inc : Kernel.Incoming} {rest : List ConnPtr} {nconn : ConnPtr} (free : srv.kernel.Free inc.fd)
    (next : srv.roster.Next c rest nconn)
    (heeds : ∀ p, some p ∈ senders → srv.pool.head? ≠ some p ∧ inc.fd ≠ (srv.conns p).fd)
    (size : srv'.nconn = nconn) (conns : srv'.conns = Function.update srv.conns c obj)
    (ptr : obj.sendptr = (srv.takenConn c).sendptr)
    (len : obj.sendlen = (srv.takenConn c).sendlen ∨ obj.sendlen = 0) (fd : obj.fd = inc.fd)
    (sock : ∀ x, x ≠ inc.fd → srv'.kernel.sock x = srv.kernel.sock x)
    (outcome : srv'.kernel.reg = srv.kernel.reg ∧ obj.activity = .connclosed ∨
      srv'.kernel.reg = Function.update srv.kernel.reg inc.fd (some ⟨Server.acceptMask, c⟩) ∧
        (srv'.kernel.sock inc.fd).isSome = true)
    (serves : pc'.Serves srv') : Attentive srv' senders pc' := by
  have unregistered := attentive.unregistered free
  have other : ∀ x, x ≠ inc.fd → srv'.kernel.reg x = srv.kernel.reg x := by
    intro x distinct
    rcases outcome with ⟨same, _⟩ | ⟨added, _⟩
    · rw [same]
    · rw [added, Function.update_of_ne distinct]
  -- the new number is registered for the object or not at all
  have own : srv'.kernel.reg inc.fd = none ∧ obj.activity = .connclosed ∨
      srv'.kernel.reg inc.fd = some ⟨Server.acceptMask, c⟩ ∧
        (srv'.kernel.sock inc.fd).isSome = true := by
    rcases outcome with ⟨same, closed⟩ | ⟨added, opened⟩
    · exact .inl ⟨by rw [same, unregistered], closed⟩
    · exact .inr ⟨by rw [added, Function.update_self], opened⟩
  refine attentive.change conns (fun x => ?_) (fun x ev registered => ?_) (size ▸ next.size_le)
    (fun p inside distinct => next.lt_of_ne (size ▸ inside) distinct) (fun p _ member none => ?_)
    (fun p member => .inr member) (fun busy => ?_) (fun ev registered _ => ?_) (fun b waits => ?_)
    (fun member => ?_) serves
  · by_cases same : x = inc.fd
    · subst same
      right
      rw [unregistered]
      refine ⟨fun _ none => absurd none (by simp), fun ev registered => ?_⟩
      rcases own with ⟨none, _⟩ | ⟨mine, _⟩
      · rw [none] at registered
        contradiction
      · rw [mine] at registered
        exact Option.some.inj registered ▸ rfl
    · exact .inl (other x same)
  · by_cases same : x = inc.fd
    · subst same
      rcases own with ⟨none, _⟩ | ⟨_, opened⟩
      · rw [none] at registered
        contradiction
      · exact ⟨opened, free.1⟩
    · rw [other x same] at registered
      rw [sock x same]
      exact attentive.sound x ev registered
  · rw [other _ (heeds p member).2.symm, none]
  · rw [fd]
    rcases own with ⟨_, closed⟩ | ⟨mine, _⟩
    · exact absurd closed busy
    · rw [mine]
      rfl
  · rw [fd] at registered
    rcases own with ⟨none, _⟩ | ⟨mine, _⟩
    · rw [none] at registered
      contradiction
    · rw [mine] at registered
      obtain rfl := Option.some.inj registered
      exact .inl (by decide : hasAny Server.acceptMask epollIn = true)
  · obtain ⟨fits, small⟩ := attentive.taken existing next b (ptr ▸ waits)
    rcases len with same | zero
    · rw [same]
      exact ⟨fits, small⟩
    · rw [zero]
      exact ⟨Nat.zero_le _, by decide⟩
  · -- no sender holds the object that is taken
    cases next with
    | pooled queue =>
      rw [Server.roster_pool] at queue
      exact absurd (by rw [queue]; rfl) (heeds c member).1
    | fresh _ => exact absurd (attentive.senders _ member).1 (lt_irrefl _)

/-- An object whose descriptor leaves the interest list and that is closed. -/
theorem Attentive.close (attentive : Attentive srv senders pc) (inside : c < srv.nconn)
    (owner : srv.roster.Live c) (conns : srv'.conns = Function.update srv.conns c obj)
    (nconn : srv'.nconn = srv.nconn) (ptr : obj.sendptr = (srv.conns c).sendptr)
    (len : obj.sendlen = (srv.conns c).sendlen ∨ obj.sendlen = 0)
    (closed : obj.activity = .connclosed) (fd : obj.fd = (srv.conns c).fd ∨ obj.fd < 0)
    (reg : srv'.kernel.reg = Function.update srv.kernel.reg (srv.conns c).fd none)
    (sock : ∀ x, x ≠ (srv.conns c).fd →
      (srv'.kernel.sock x).isSome = (srv.kernel.sock x).isSome)
    (serves : srv'.kernel.reg (srv'.conns c).fd = none → pc'.Serves srv') :
    Attentive srv' senders pc' := by
  obtain ⟨old, registered, mine⟩ := live_iff.mp owner
  have none : srv'.kernel.reg obj.fd = none := by
    rw [reg]
    rcases fd with same | negative
    · rw [same, Function.update_self]
    · by_cases same : obj.fd = (srv.conns c).fd
      · rw [same, Function.update_self]
      · rw [Function.update_of_ne same]
        cases still : srv.kernel.reg obj.fd with
        | none => rfl
        | some ev => exact absurd (attentive.sound _ ev still).2 (not_le_of_gt negative)
  refine attentive.change conns (fun x => ?_) (fun x ev still => ?_) (le_of_eq nconn.symm)
    (fun p known _ => nconn ▸ known) (fun p _ _ gone => ?_) (fun p member => .inr member)
    (absurd closed) (fun ev still _ => ?_) (fun b waits => ?_)
    (fun _ => ⟨nconn ▸ inside, .inr none⟩) (serves ?_)
  · rw [reg]
    by_cases same : x = (srv.conns c).fd
    · right
      rw [same, Function.update_self, registered]
      exact ⟨fun _ equal => Option.some.inj equal ▸ mine, fun _ gone => absurd gone (by simp)⟩
    · exact .inl (Function.update_of_ne same _ _)
  · rw [reg] at still
    by_cases same : x = (srv.conns c).fd
    · rw [same, Function.update_self] at still
      contradiction
    · rw [Function.update_of_ne same] at still
      rw [sock x same]
      exact attentive.sound x ev still
  · rw [reg]
    by_cases same : (srv.conns p).fd = (srv.conns c).fd
    · rw [same, Function.update_self]
    · rw [Function.update_of_ne same, gone]
  · rw [none] at still
    contradiction
  · obtain ⟨fits, small⟩ := attentive.sized c inside b (ptr ▸ waits)
    rcases len with same | zero
    · rw [same]
      exact ⟨fits, small⟩
    · rw [zero]
      exact ⟨Nat.zero_le _, by decide⟩
  · rw [conns, Function.update_self]
    exact none

/-- A refused accept. -/
theorem Attentive.refused {fr : Frame} {inc : Kernel.Incoming} {rest : List ConnPtr}
    {nconn : ConnPtr} (attentive : Attentive srv senders pc) (existing : srv.Existing)
    (free : srv.kernel.Free inc.fd) (next : srv.roster.Next c rest nconn)
    (heeds : ∀ p, some p ∈ senders → srv.pool.head? ≠ some p ∧ inc.fd ≠ (srv.conns p).fd) :
    Attentive (srv.refused inc c rest nconn) senders fr.resume := by
  let failed : Server := { srv.acceptedConn inc c rest nconn with
    kernel := (Server.acceptedKernel srv.kernel inc).log (.epollCtl inc.fd)
    event := Function.update srv.event 0 ⟨Server.acceptMask, c⟩ }
  obtain ⟨reg, sock⟩ :=
    acceptErr_kernel (failed.setConn c) inc.fd (attentive.unregistered free)
  obtain ⟨_, _, _, _, frame⟩ := srv.refused_frame inc c rest nconn
  refine attentive.accept existing free next heeds (by rw [frame]) (srv.refused_conns inc c rest
    nconn) rfl (.inr rfl) rfl (fun x distinct => ?_) (.inl ⟨reg, rfl⟩) (serves_resume fr)
  exact (sock x distinct).trans (Function.update_of_ne distinct _ _)

/-- A dropped accept. -/
theorem Attentive.dropped {fr : Frame} {inc : Kernel.Incoming}
    (attentive : Attentive srv senders pc) (free : srv.kernel.Free inc.fd) :
    Attentive (srv.dropped inc) senders fr.resume := by
  have unregistered := attentive.unregistered free
  obtain ⟨reg, sock⟩ := acceptErr_kernel
    { srv with kernel := Server.acceptedKernel srv.kernel inc } inc.fd unregistered
  obtain ⟨_, _, frame⟩ := srv.dropped_frame inc
  refine attentive.frame (by rw [frame]) (by rw [frame]) reg (fun fd ev registered opened => ?_)
    (serves_resume fr)
  have distinct : fd ≠ inc.fd := by
    rintro rfl
    rw [unregistered] at registered
    contradiction
  have same : (srv.dropped inc).kernel.sock fd = srv.kernel.sock fd :=
    (sock fd distinct).trans (Function.update_of_ne distinct _ _)
  rwa [same]

/-- The end of a connection that owns its descriptor. -/
theorem Attentive.hangUp {fr : Frame} (attentive : Attentive srv senders pc)
    (inside : c < srv.nconn) (owner : srv.roster.Live c) :
    Attentive (srv.hangUp c) senders (.write fr c) := by
  obtain ⟨ev, registered, _⟩ := live_iff.mp owner
  obtain ⟨opened, number⟩ := attentive.sound _ ev registered
  have deleted : (srv.kernel.ctlDel (srv.conns c).fd).2.reg =
      Function.update srv.kernel.reg (srv.conns c).fd none := by
    simp [Kernel.ctlDel, opened, registered]
  by_cases positive : 0 < (srv.conns c).fd
  · rw [Server.hangUp_eq positive]
    refine attentive.close inside owner rfl rfl rfl (.inr rfl) rfl (.inr (Int.negSucc_lt_zero 0)) ?_
      (fun x distinct => by simp [Kernel.close, distinct]) .inr
    show Function.update (srv.kernel.ctlDel (srv.conns c).fd).2.reg (srv.conns c).fd none = _
    rw [deleted, Function.update_idem]
  · have kept : srv.hangUp c = { srv with
        kernel := (srv.kernel.ctlDel (srv.conns c).fd).2
        conns := Function.update srv.conns c (connobjReset (srv.conns c))
        pool := srv.pool ++ [c] } := by
      simp [Server.hangUp, Server.epollEventDelConn, Server.closeConnObj, positive, Server.setConn,
        dataQueuePush]
    rw [kept]
    exact attentive.close inside owner rfl rfl rfl (.inr rfl) rfl (.inl rfl) deleted
      (fun x _ => by simp) .inr

/-- An owner is connected. -/
theorem Attentive.connected {fr : Frame} (attentive : Attentive srv senders pc)
    (inside : c < srv.nconn) (owner : srv.roster.Live c) :
    Attentive { srv with
      kernel := srv.kernel.log (.getsockopt (srv.conns c).fd)
      conns := Function.update srv.conns c { srv.conns c with activity := .connected } } senders
      (.read fr c) := by
  have roster : ({ srv with
      kernel := srv.kernel.log (.getsockopt (srv.conns c).fd)
      conns := Function.update srv.conns c { srv.conns c with activity := .connected } } :
      Server).roster = srv.roster :=
    Server.roster_congr (Server.sameTable_log srv.kernel (.getsockopt (srv.conns c).fd))
      (Server.fd_update (by rfl)) rfl rfl
  refine attentive.change rfl (fun _ => .inl rfl) attentive.sound (le_refl _)
    (fun _ known _ => known) (fun _ _ _ => id) (fun p member => .inr member) (fun _ => owner)
    (attentive.hears c) (attentive.sized c inside) (attentive.senders c) (.inl ?_)
  rw [roster]
  exact owner

/-- Allocations keep the invariant. -/
theorem Attentive.heap {heap : Heap} (attentive : Attentive srv senders pc) :
    Attentive { srv with heap } senders pc :=
  attentive.frame rfl rfl rfl (fun _ _ _ => id)
    (attentive.serves.keep (fun _ => rfl) (fun _ => id) fun _ => rfl)

/-- The receiving loop keeps the invariant. -/
theorem Attentive.received (attentive : Attentive srv senders pc) (c : ConnPtr)
    (input : Server.ReadInput) (serves : pc'.Serves srv) :
    Attentive (srv.received c input) senders pc' := by
  have table := srv.sameTable_received c input
  refine attentive.frame rfl rfl (readData_reg ..) (fun fd _ _ opened => ?_) ?_
  · rwa [table.isOpen]
  · refine serves.keep (fun _ => rfl) (fun fd closed => ?_) table.owner
    have same := table.isOpen fd
    rw [closed] at same
    exact Option.not_isSome_iff_eq_none.mp (by simp [same])

/-- What a step of the reactor, a worker or the kernel needs of the discipline. -/
theorem Attentive.step {s : Split} {s' : State} {l : Label}
    (attentive : Attentive s.base.srv s.senders s.base.reactor) (known : Known s.base)
    (heeds : Heeds s (.base l)) (whole : ∀ c data len granted, l ≠ .send c data len granted)
    (stepped : EpollNet.step s.base l = some s') : Attentive s'.srv s.senders s'.reactor := by
  obtain ⟨existing, within⟩ := known
  have serves := attentive.serves
  -- a receiving loop that returned was on an owner's descriptor
  have reading : ∀ {fr c input recvlen}, s.base.reactor = .read fr c →
      s.base.srv.recvlen c input = some recvlen → s.base.srv.roster.Live c := by
    intro fr c input recvlen at_read returned
    rw [at_read] at serves
    refine serves.resolve_right fun closed => ?_
    have opened := Server.isOpen_of_recvlen returned
    rw [closed] at opened
    contradiction
  have writing : ∀ {fr c script}, s.base.reactor = .write fr c →
      hasAny eventWriteBits fr.events = true → Heeds s (.base (.write script)) →
      Attentive (afterWrite s.base fr (s.base.srv.eventWrite c script)).srv s.senders
        (afterWrite s.base fr (s.base.srv.eventWrite c script)).reactor := by
    intro fr c script at_write writes heeds
    rw [at_write] at within
    refine attentive.write at_write within.1 script (heeds c ?_)
    rw [at_write]
    exact if_pos writes
  have cases' := step_cases stepped
  cases cases' with
  | waited _ _ =>
    refine attentive.frame rfl rfl rfl (fun _ _ _ => id) ?_
    unfold Pc.begin
    split <;> trivial
  | tested _ => exact attentive.frame rfl rfl rfl (fun _ _ _ => id) (serves_dispatch _ _)
  | acceptLooping _ => exact attentive.frame rfl rfl rfl (fun _ _ _ => id) trivial
  | acceptNone _ => exact attentive.frame rfl rfl rfl (fun _ _ _ => id) (serves_resume _)
  | acceptDropped _ _ free => exact attentive.dropped free
  | @acceptRefused fr input inc c rest nconn _ offered free next _ =>
    refine attentive.refused existing free next fun p member => ?_
    exact heeds (some p) member p rfl _ offered inc.fd rfl
  | @acceptAdmitted fr input inc c rest nconn _ offered free next =>
    refine attentive.accept existing free next (fun p member => ?_) rfl rfl rfl (.inl rfl) rfl
      (fun x distinct => Function.update_of_ne distinct _ _) (.inr ⟨rfl, ?_⟩) trivial
    · exact heeds (some p) member p rfl _ offered inc.fd rfl
    · show (Function.update s.base.srv.kernel.sock inc.fd _ inc.fd).isSome = true
      rw [Function.update_self]
      rfl
  | sockoptFailed _ _ => exact attentive.frame rfl rfl rfl (fun _ _ _ => id) (serves_resume _)
  | @sockoptConnected fr c at_sockopt isOpen =>
    have owner : s.base.srv.roster.Live c := heeds c (by rw [at_sockopt]; rfl) isOpen
    rw [at_sockopt] at within
    exact attentive.connected within.1 owner
  | @sockoptSevered fr c val at_sockopt isOpen _ =>
    have owner : s.base.srv.roster.Live c := heeds c (by rw [at_sockopt]; rfl) isOpen
    rw [at_sockopt] at within
    refine attentive.close within.1 owner rfl rfl rfl (.inl rfl) rfl (.inl rfl) rfl
      (fun x distinct => ?_) fun _ => .inr ?_
    · simp [Server.severed, Kernel.close, distinct]
    · simp [Server.severed, Kernel.close]
  | @readSkipped fr c input at_read _ =>
    rw [at_read] at serves
    refine attentive.frame rfl rfl rfl (fun _ _ _ => id) (serves.imp_right fun closed => ?_)
    cases registered : s.base.srv.kernel.reg (s.base.srv.conns c).fd with
    | none => rfl
    | some ev =>
      have opened := (attentive.sound _ ev registered).1
      rw [closed] at opened
      contradiction
  | @readLooping fr c input _ _ _ => exact attentive.received c input trivial
  | @readEnded fr c input at_read _ returned =>
    rw [at_read] at serves within
    have owner := reading at_read returned
    have received : Attentive (s.base.srv.received c input) s.senders .inHandler :=
      attentive.received c input trivial
    refine received.hangUp within.1 ?_
    rw [Server.roster_received]
    exact owner
  | @readFinished fr c input recvlen heap at_read _ returned _ _ =>
    have serving : (Pc.write fr c).Serves s.base.srv := .inl (reading at_read returned)
    exact (attentive.received c input serving).heap
  | @readItem fr c input recvlen item made at_read _ returned _ _ _ _ _ =>
    have serving : (Pc.push fr c item).Serves s.base.srv := .inl (reading at_read returned)
    exact (attentive.received c input serving).heap
  | pushed at_push =>
    rw [at_push] at serves
    exact attentive.frame rfl rfl rfl (fun _ _ _ => id) serves
  | posted at_post =>
    rw [at_post] at serves
    exact attentive.frame rfl rfl rfl (fun _ _ _ => id) serves
  | writeIdle _ => exact attentive.frame rfl rfl rfl (fun _ _ _ => id) (serves_resume _)
  | @writeLooping fr c script b at_write writes _ _ =>
    simp only [EpollNet.step, at_write, writes, if_true, Option.some.injEq] at stepped
    exact stepped ▸ writing at_write writes heeds
  | @written fr c script b heap obj flags at_write writes _ _ _ _ _ =>
    simp only [EpollNet.step, at_write, writes, if_true, Option.some.injEq] at stepped
    exact stepped ▸ writing at_write writes heeds
  | arrived =>
    refine attentive.frame rfl rfl (Kernel.arrive_reg ..) (fun fd _ _ opened => ?_) ?_
    · rwa [(Kernel.sameTable_arrive ..).isOpen]
    · refine serves.keep (fun _ => rfl) (fun fd closed => ?_)
        (Kernel.sameTable_arrive _ _).owner
      have same := (Kernel.sameTable_arrive s.base.srv.kernel ‹_›).isOpen fd
      rw [closed] at same
      exact Option.not_isSome_iff_eq_none.mp (by simp [same])
  | sendIdle => exact (whole _ _ _ _ rfl).elim
  | sent _ _ _ _ _ _ => exact (whole _ _ _ _ rfl).elim
  | worker moved =>
    obtain ⟨reactor, rqueue, sem, heap, srv⟩ := moved.frame
    rw [reactor, srv]
    exact attentive.frame rfl rfl rfl (fun _ _ _ => id) (serves.keep (fun _ => rfl) (fun _ => id)
      fun _ => rfl)
  | interrupted _ => exact attentive

/-! ## Steps of the senders -/

/-- The first step of `ServerSend` does nothing, or makes a payload of positive `int` length wait on
a connected object. -/
theorem store_cases {s s' : Split} {t : Nat} {data : Memory} {len : Int}
    (stepped : s.store t c data len = some s') :
    s' = s ∨ ∃ (n : Nat) (heap : Heap) (sent : List (ConnPtr × Nat × Buf)),
      0 < n ∧ n < 2 ^ 31 ∧ c < s.base.srv.nconn ∧
        (s.base.srv.conns c).activity = .connected ∧
        s' = {
          base := { s.base with srv := { s.base.srv with
            heap
            conns := Function.update s.base.srv.conns c { s.base.srv.conns c with
              sendptr := some (payloadBuf s.base.srv data n), sendlen := n }
            sent } }
          senders := s.senders.set t (some c) } := by
  unfold Split.store at stepped
  split at stepped
  · split at stepped
    · rename_i allowed
      obtain ⟨known, small⟩ := allowed
      by_cases goes : len > 0 ∧ (s.base.srv.conns c).activity = .connected
      · obtain ⟨n, rfl⟩ := Int.eq_ofNat_of_zero_le (Int.le_of_lt goes.1)
        have positive : 0 < n := Int.natCast_pos.mp goes.1
        have less : n < 2 ^ 31 := by omega
        have size : ((n : Int) % 2 ^ 64).toNat = n := by omega
        unfold Server.serverSendStore at stepped
        rw [if_pos goes] at stepped
        simp only [if_true, cStrMalloc, cStrCreate, size, positive,
          Int.toNat_natCast, Option.some.injEq] at stepped
        exact .inr ⟨n, _, _, positive, less, known, goes.2, stepped.symm⟩
      · unfold Server.serverSendStore at stepped
        rw [if_neg goes] at stepped
        exact .inl (Option.some.inj stepped).symm
    · contradiction
  · contradiction

/-- A thread put at a place of its own. -/
theorem mem_set_cases {threads : List (Option ConnPtr)} {t : Nat} {new : Option ConnPtr}
    {p : ConnPtr} (member : some p ∈ threads.set t new) : new = some p ∨ some p ∈ threads := by
  rcases List.mem_or_eq_of_mem_set member with old | same
  · exact .inr old
  · exact .inl same.symm

/-- A payload that is stored waits. -/
theorem Attentive.store {n : Nat} {data : Memory} {heap : Heap}
    {sent : List (ConnPtr × Nat × Buf)} (attentive : Attentive srv senders pc) (t : Nat)
    (positive : 0 < n) (small : n < 2 ^ 31) (inside : c < srv.nconn)
    (connected : (srv.conns c).activity = .connected) :
    Attentive { srv with
      heap
      conns := Function.update srv.conns c
        { srv.conns c with sendptr := some (payloadBuf srv data n), sendlen := n }
      sent } (senders.set t (some c)) pc := by
  have owner := attentive.active c inside (by rw [connected]; simp)
  refine attentive.change rfl (fun _ => .inl rfl) attentive.sound (le_refl _)
    (fun _ known _ => known) (fun _ _ _ => id) (fun p member => ?_) (fun _ => owner)
    (fun _ _ _ => .inr ⟨rfl, positive⟩) (fun b waits => ?_)
    (fun _ => ⟨inside, .inl ⟨owner, rfl, positive⟩⟩) ?_
  · exact (mem_set_cases member).imp_left fun same => (Option.some.inj same).symm
  · obtain rfl := Option.some.inj waits
    refine ⟨?_, small⟩
    simp [payloadBuf, Memory.copy]
  · exact attentive.serves.keep (Server.fd_update (by rfl)) (fun _ => id) fun _ => rfl

/-- The interest that a sender changes is that of a connection with its payload waiting. -/
theorem Attentive.modified (attentive : Attentive srv senders pc) (t : Nat)
    (member : some c ∈ senders) :
    Attentive (srv.epollEventModifyConn c eventWriteBits).2 (senders.set t none) pc := by
  obtain ⟨inside, state⟩ := attentive.senders c member
  have owns : srv.roster.Live c ∨ srv.kernel.reg (srv.conns c).fd = none :=
    state.imp_left And.left
  have waits : srv.roster.Live c → srv.Waits c := by
    intro owner
    rcases state with ⟨_, waits⟩ | none
    · exact waits
    · obtain ⟨ev, registered, _⟩ := live_iff.mp owner
      rw [none] at registered
      contradiction
  have same : srv = { srv with
      kernel := srv.kernel
      heap := srv.heap
      conns := Function.update srv.conns c (srv.conns c) } := by
    rw [Function.update_eq_self]
  obtain ⟨_, _, failed, changed⟩ := modify_reg attentive rfl (fun _ => rfl) owns
    ⟨Server.modifyMask eventWriteBits, c⟩ rfl
  have serves : pc.Serves (srv.epollEventModifyConn c eventWriteBits).2 := by
    refine attentive.serves.keep (fun _ => rfl) (fun fd closed => ?_) fun fd => ?_
    · show (srv.kernel.ctlMod _ _).2.sock fd = none
      rw [Kernel.ctlMod_sock, closed]
    · show ((srv.kernel.ctlMod _ _).2.reg fd).map EpollEvent.ptr = _
      rcases owns with owner | none
      · rw [changed owner]
        by_cases own : fd = (srv.conns c).fd
        · rw [own, Function.update_self]
          exact owner.symm
        · rw [Function.update_of_ne own]
      · rw [failed none]
  rw [same] at serves ⊢
  exact attentive.modify _ inside rfl (fun _ => rfl) owns rfl rfl (attentive.sized c inside)
    (fun owner => .inr (waits owner))
    (fun p member => (mem_set_cases member).resolve_left (by simp)) (fun _ => waits) serves

/-! ## Runs -/

namespace Split

variable {s s' : Split} {l : SplitLabel}

/-- What holds of the server with senders between any two steps. -/
structure Heard (s : Split) : Prop where
  /-- The server works with objects that exist. -/
  known : Known s.base
  /-- Somebody listens to every owner. -/
  attentive : Attentive s.base.srv s.senders s.base.reactor

/-- Every step the discipline allows keeps it. -/
theorem Heard.step (heard : s.Heard) (heeds : Heeds s l) (stepped : Split.step s l = some s') :
    s'.Heard := by
  obtain ⟨known, attentive⟩ := heard
  cases l with
  | base l =>
    by_cases whole : ∃ c data len granted, l = .send c data len granted
    · obtain ⟨c, data, len, granted, rfl⟩ := whole
      contradiction
    · push Not at whole
      have base : (EpollNet.step s.base l).map (fun base => { s with base }) = some s' := by
        cases l with
        | send c data len granted => exact absurd rfl (whole c data len granted)
        | _ => exact stepped
      obtain ⟨next, moved, rfl⟩ := Option.map_eq_some_iff.mp base
      exact ⟨known.step (step_cases moved), attentive.step known heeds whole moved⟩
  | store t c data len =>
    rcases store_cases stepped with rfl | ⟨n, heap, sent, positive, small, inside, connected, rfl⟩
    · exact ⟨known, attentive⟩
    · refine ⟨⟨known.existing.congr rfl rfl fun _ _ owned => owned, known.within⟩, ?_⟩
      exact attentive.store t positive small inside connected
  | modify t =>
    simp only [Split.step, Split.modify] at stepped
    split at stepped
    · rename_i c holds
      obtain rfl := Option.some.inj stepped
      have member : some c ∈ s.senders := List.mem_of_getElem? holds
      have inside := (attentive.senders c member).1
      refine ⟨⟨known.existing.modify inside _, ?_⟩, attentive.modified t member⟩
      dsimp only
      rw [Server.targets_modify]
      exact known.within.store inside
    · contradiction

/-- Nobody sends when the server starts. -/
theorem Started.heard (started : s.Started) : s.Heard := by
  obtain ⟨started, threads, none⟩ := started
  have only : ∀ p, p < s.base.srv.nconn → p = serverConn := by
    intro p inside
    rw [started.nconn] at inside
    exact Nat.lt_one_iff.mp inside
  have blank := started.blank
  have orderly := started.orderly
  refine ⟨started.known, ?_, ?_, ?_, ?_, ?_, ?_⟩
  · intro fd ev registered
    have opened := orderly.kept.sound.isOpen fd ev.ptr (by simp [registered])
    exact ⟨opened, (orderly.kept.numbers fd opened).1⟩
  · intro p inside busy
    rw [only p inside] at busy
    exact absurd started.idle busy
  · intro p ev registered _
    rw [started.listener _ ev registered]
    exact .inl (by decide)
  · intro p inside b waits
    rw [only p inside, blank.sendptr] at waits
    contradiction
  · intro p member
    rw [none] at member
    exact absurd (List.eq_of_mem_replicate member) (by simp)
  · rcases started.cases with ⟨_, _, failed | ⟨_, _, _, failed | ⟨_, _, running⟩⟩⟩
    · rw [failed]
      trivial
    · rw [failed]
      trivial
    · rw [running]
      trivial

end Split

/-- In an owner's `event_write` that is not blocked the interest in input comes back. -/
theorem armed_eventWrite (attentive : Attentive srv senders pc) (owner : srv.roster.Live c)
    {b : Buf} {script : WriteScript} {ret : Int} (waits : (srv.conns c).sendptr = some b)
    (positive : 0 < (srv.conns c).sendlen)
    (returned : (sendData (srv.conns c) b script srv.kernel).ret = some ret) (notAgain : ret ≠ -2) :
    (srv.eventWrite c script).2.kernel.armed (srv.conns c).fd = true := by
  have table := sameTable_sendData (srv.conns c) b script srv.kernel
  have changed := (modify_reg attentive (sendData_reg (srv.conns c) b script srv.kernel)
    table.isOpen (.inl owner) ⟨Server.modifyMask eventReadBits, c⟩ rfl).2.2.2 owner
  have armed : ∀ srv' : Server, srv'.kernel = (sendData (srv.conns c) b script srv.kernel).kernel →
      (srv'.conns c).fd = (srv.conns c).fd →
      (srv'.epollEventModifyConn c eventReadBits).2.kernel.armed (srv.conns c).fd = true := by
    intro srv' kernel fd
    have reg : (srv'.epollEventModifyConn c eventReadBits).2.kernel.reg (srv.conns c).fd =
        some ⟨Server.modifyMask eventReadBits, c⟩ := by
      show (srv'.kernel.ctlMod (srv'.conns c).fd _).2.reg _ = _
      rw [kernel, fd, changed, Function.update_self]
    unfold Kernel.armed
    rw [reg]
    exact (by decide : hasAny (Server.modifyMask eventReadBits) epollIn = true)
  rcases srv.eventWrite_cases c script with ⟨idle, _⟩ | ⟨b', waits', _, outcome⟩
  · rcases idle with none | zero
    · rw [none] at waits
      contradiction
    · omega
  obtain rfl : b' = b := Option.some.inj (waits'.symm.trans waits)
  rcases outcome with ⟨looping, _⟩ | ⟨again, _⟩ | ⟨_, called⟩ | ⟨_, _, _, _, called⟩
  · rw [looping] at returned
    contradiction
  · rw [again] at returned
    exact absurd (Option.some.inj returned).symm notAgain
  · rw [called]
    exact armed _ rfl rfl
  · rw [called]
    exact armed _ rfl (by simp [Server.unloaded])

/-- In every run that heeds the senders, every open client connection is registered for `EPOLLIN`
or has a payload waiting with which `event_write` registers it again. -/
theorem never_deaf {s : Split} (reached : Reach Split.step Heeds Split.Started s) :
    ∀ c, s.base.srv.OpenClient c → s.base.srv.Hears c := by
  have heard : s.Heard := reached.invariant (fun _ started => started.heard)
    fun _ _ _ heard heeds stepped => heard.step heeds stepped
  intro c ⟨_, inside, busy, _⟩
  have owner := heard.attentive.active c inside busy
  obtain ⟨ev, registered, named⟩ := live_iff.mp owner
  rcases heard.attentive.hears c ev registered named with input | ⟨some, positive⟩
  · left
    unfold Kernel.armed
    rw [registered]
    exact input
  · obtain ⟨b, waits⟩ := Option.isSome_iff_exists.mp some
    refine .inr ⟨b, waits, positive, fun script ret returned notAgain => ?_⟩
    exact armed_eventWrite heard.attentive owner waits positive returned notAgain

namespace Sample

/-- The sample server with two threads that send. -/
def split : Split := ⟨start, [none, none]⟩

/-- It is one that may start. -/
theorem split_started : split.Started := ⟨started, 2, rfl⟩

/-- A thread's whole `ServerSend` of `n` bytes. -/
def replying (t : Nat) (c : ConnPtr) (n : Nat) : List SplitLabel :=
  [.store t c (fun _ => 65) n, .modify t]

/-- A writable event comes to `event_write`. -/
def writable (fd : Fd) (script : WriteScript) : List Label :=
  [.wait [(fd, epollOut)], .test, .sockopt (some 0), .read (reading []), .write script]

end Sample

/-- Two payloads are stored one over the other, both before the writable event. -/
theorem never_deaf_overlapping : ∃ s : Split, s.base.srv.OpenClient 1 ∧
    s.base.srv.kernel.armed (s.base.srv.conns 1).fd = false ∧ s.base.srv.Hears 1 := by
  have completed : (runAllowed Split.step Heeds Sample.split
      ((Sample.connecting 4).map .base ++ [.store 0 1 (fun _ => 65) 3] ++ Sample.replying 1 1 2 ++
        (Sample.writable 4 [.error .eagain]).map .base ++ [.modify 0])).map
        (fun s => s.base.srv.nconn == 2 && (s.base.srv.conns 1).activity == .connected &&
          (s.base.srv.kernel.sock (s.base.srv.conns 1).fd).isSome &&
          !s.base.srv.kernel.armed (s.base.srv.conns 1).fd) = some true := by
    decide +kernel
  obtain ⟨s, reached, passed⟩ := Reach.exists_of_run Sample.split_started completed
  simp only [Bool.and_eq_true, beq_iff_eq, Bool.not_eq_true'] at passed
  obtain ⟨⟨⟨created, connected⟩, opened⟩, unarmed⟩ := passed
  have client : s.base.srv.OpenClient 1 :=
    ⟨by decide, by rw [created]; decide, by rw [connected]; simp, opened⟩
  exact ⟨s, client, unarmed, never_deaf reached 1 client⟩

/-- The payload stored first is pending, the one stored over it is sent off by a writable event,
and only then does its `ServerSend` take away the interest in input. -/
theorem client_deaf : ¬∀ s : Split, Reach Split.step (fun _ _ => True) Split.Started s → s.Quiet →
    ∀ c, s.base.srv.OpenClient c → s.base.srv.Hears c := by
  intro heard
  have completed : (runAllowed Split.step (fun _ _ => True) Sample.split
      ((Sample.connecting 4).map .base ++ Sample.replying 0 1 3 ++ [.store 0 1 (fun _ => 66) 2] ++
        (Sample.writable 4 [.ok 1]).map .base ++ [.modify 0])).map
        (fun s => decide s.Quiet && s.base.srv.nconn == 2 &&
          (s.base.srv.conns 1).activity == .connected &&
          (s.base.srv.kernel.sock (s.base.srv.conns 1).fd).isSome &&
          !s.base.srv.kernel.armed (s.base.srv.conns 1).fd &&
          (s.base.srv.conns 1).sendptr == none) = some true := by
    decide +kernel
  obtain ⟨s, reached, passed⟩ := Reach.exists_of_run Sample.split_started completed
  simp only [Bool.and_eq_true, beq_iff_eq, Bool.not_eq_true', decide_eq_true_eq] at passed
  obtain ⟨⟨⟨⟨⟨quiet, created⟩, connected⟩, opened⟩, unarmed⟩, none⟩ := passed
  rcases heard s reached quiet 1 ⟨by decide, by rw [created]; decide, by rw [connected]; simp,
    opened⟩ with armed | ⟨b, waits, _⟩
  · exact Bool.false_ne_true (unarmed.symm.trans armed)
  · exact Option.some_ne_none b (waits.symm.trans none)

end EpollNet
