import EpollNet.Net.Registration
import EpollNet.Verif.Orderly

/-!
# The first entry, used by one call at a time

A registration call stores its argument piece by piece into an entry that other calls,
`epoll_wait` and the dispatching loop use too. `ExclusiveStores` is the environment in which no
call's stores are interleaved with another user of the entry, nobody stores another connection
into an entry still to be dispatched, and no descriptor is closed under a sender without
resetting `conn->fd`. `Intact` is what a state should be, and `Regs.Regular` the invariant
that carries it: here it is stated and shown to survive a store and an `epoll_ctl`.
-/

namespace EpollNet

open EpollNet.Basis

/-! ## Calls -/

/-- The entry after accesses. -/
def runOps : List EvOp → EpollEvent → BitVec 32 → EpollEvent
  | [], ev, _ => ev
  | op :: rest, ev, acc => runOps rest (op.exec ev acc).1 (op.exec ev acc).2

namespace RegCall

/-- The call's remaining accesses make its argument out of an entry. -/
def Yields (call : RegCall) (ev : EpollEvent) : Prop :=
  runOps call.ops ev call.acc = ⟨call.mask, call.conn⟩

/-- What a call in progress keeps as long as it is left alone. -/
structure Ready (call : RegCall) (ev : EpollEvent) : Prop where
  /-- It makes its argument out of the entry as it is. -/
  yields : call.Yields ev
  /-- While it has not begun, it makes it out of any entry. -/
  idle : call.begun = false → ∀ ev', call.Yields ev'
  /-- It stores no other object. -/
  aims : ∀ c, .setPtr c ∈ call.ops → c = call.conn

/-- `epollEvent_addConn` registers what it is given. -/
theorem add_ready (c : ConnPtr) (events : BitVec 32) (ev : EpollEvent) :
    (add c events).Ready ev where
  yields := rfl
  idle := fun _ _ => rfl
  aims := by
    intro other stored
    simp only [add, addOps, List.mem_cons, reduceCtorEq, EvOp.setPtr.injEq, List.not_mem_nil,
      or_false, false_or] at stored
    exact stored

/-- `epollEvent_modifyConn` registers the mask of its flags. -/
theorem modify_yields (c : ConnPtr) (flags : BitVec 32) (ev : EpollEvent) :
    (modify c flags).Yields ev := by
  unfold Yields modify modifyOps Server.modifyMask
  cases hasAny flags eventReadBits <;> cases hasAny flags eventWriteBits <;>
    simp [runOps, EvOp.exec]

/-- So it is ready at its entry. -/
theorem modify_ready (c : ConnPtr) (flags : BitVec 32) (ev : EpollEvent) :
    (modify c flags).Ready ev where
  yields := modify_yields c flags ev
  idle := fun _ => modify_yields c flags
  aims := by
    intro other stored
    change other = c
    unfold modify modifyOps at stored
    cases hasAny flags eventReadBits <;> cases hasAny flags eventWriteBits <;>
      simpa using stored

/-- A call that has begun and is left alone stays ready. -/
theorem Ready.access {srv : Server} {call : RegCall} {op : EvOp} {rest : List EvOp}
    (ready : call.Ready (srv.event 0)) (ops : call.ops = op :: rest) :
    (Regs.access srv call op rest).2.Ready ((Regs.access srv call op rest).1.event 0) := by
  refine ⟨?_, nofun, fun c stored => ready.aims c ?_⟩
  · have yields := ready.yields
    rw [Yields, ops, runOps] at yields
    simp only [Yields, Regs.access, Function.update_self]
    exact yields
  · rw [ops]
    exact List.mem_cons_of_mem _ stored

/-- An access leaves the entry's object or stores the call's. -/
theorem Ready.access_ptr {srv : Server} {call : RegCall} {op : EvOp} {rest : List EvOp}
    (ready : call.Ready (srv.event 0)) (ops : call.ops = op :: rest) :
    ((Regs.access srv call op rest).1.event 0).ptr = (srv.event 0).ptr ∨
      ((Regs.access srv call op rest).1.event 0).ptr = call.conn := by
  simp only [Regs.access, Function.update_self]
  cases op with
  | store _ => exact .inl rfl
  | load => exact .inl rfl
  | orStore _ => exact .inl rfl
  | setPtr c =>
    have own : c = call.conn := ready.aims c (ops ▸ List.mem_cons_self)
    exact .inr own

/-- With no access left the entry is the argument. -/
theorem Ready.entry {call : RegCall} {ev : EpollEvent} (ready : call.Ready ev)
    (ops : call.ops = []) : ev = ⟨call.mask, call.conn⟩ := by
  have yields := ready.yields
  rwa [Yields, ops] at yields

/-- A call that has not begun is ready for any entry. -/
theorem Ready.elsewhere {call : RegCall} {ev ev' : EpollEvent} (ready : call.Ready ev)
    (idle : call.begun = false) : call.Ready ev' := ⟨ready.idle idle ev', ready.idle, ready.aims⟩

end RegCall

/-- A call nobody interferes with is the server's `epollEvent_modifyConn`. -/
theorem uninterrupted_modify (s : Server) (c : ConnPtr) (flags : BitVec 32) :
    let ev := runOps (RegCall.modify c flags).ops (s.event 0) (RegCall.modify c flags).acc
    { s with
      kernel := (s.kernel.ctlMod (s.conns c).fd ev).2
      event := Function.update s.event 0 ev } = (s.epollEventModifyConn c flags).2 := by
  have yields : runOps (RegCall.modify c flags).ops (s.event 0) (RegCall.modify c flags).acc =
      ⟨Server.modifyMask flags, c⟩ := RegCall.modify_yields c flags (s.event 0)
  rw [yields]
  rfl

/-! ## The discipline -/

/-- The registration call of the reactor. -/
def Place.call : Place → Option RegCall
  | .adding _ call _ | .modifying _ call => some call
  | _ => none

/-- The same place in the server whose handlers are single steps; an accept that has not
registered its descriptor is still to come. -/
def Place.pc : Place → Pc
  | .blocked => .blocked
  | .test fr | .err fr | .load fr => .test fr
  | .accept fr | .adding fr _ _ => .accept fr
  | .sockopt fr c => .sockopt fr c
  | .read fr c => .read fr c
  | .write fr c => .write fr c
  | .modifying fr call => .write fr call.conn
  | .inHandler => .inHandler
  | .stopped => .stopped

namespace Regs

/-- The registration call of a thread; `none` is the reactor. -/
def call (s : Regs) : Option Nat → Option RegCall
  | none => s.reactor.call
  | some t => s.senders[t]?.join

/-- No call of another thread has begun its stores. -/
def Alone (s : Regs) (thread : Option Nat) : Prop :=
  ∀ other ∈ none :: (List.range s.senders.length).map some, other ≠ thread →
    ∀ call ∈ s.call other, call.begun = false

/-- The first entry will not be loaded again, or was reported for the connection. -/
def Spares (s : Regs) (c : ConnPtr) : Prop :=
  s.reactor.pc.entryZeroLive = false ∨ c = s.reported 0

/-- No sender is in a call for the connection. -/
def Unsent (s : Regs) (c : ConnPtr) : Prop :=
  ∀ entry ∈ s.senders, ∀ call ∈ entry, call.conn ≠ c

instance (s : Regs) (thread : Option Nat) : Decidable (s.Alone thread) := by
  unfold Alone; infer_instance

instance (s : Regs) (c : ConnPtr) : Decidable (s.Spares c) := by
  unfold Spares; infer_instance

instance (s : Regs) (c : ConnPtr) : Decidable (s.Unsent c) := by
  unfold Unsent; infer_instance

end Regs

/-- Accept never answers zero. -/
def NonzeroAccept : RegLabel → Prop
  | .accept input => ∀ answer ∈ input.script, Nonzero answer
  | _ => True

instance (l : RegLabel) : Decidable (NonzeroAccept l) := by
  cases l <;> unfold NonzeroAccept <;> infer_instance

/-- Nobody fills the entry or accesses it while another call has begun its stores, and nobody
stores a connection other than the reported one into an entry still to be loaded. A descriptor
is closed with `conn->fd` kept only while no sender is in a call for the connection. -/
def exclusive (s : Regs) : RegLabel → Bool
  | .wait batch => batch.isEmpty || decide (s.Alone none)
  | .sockopt answer =>
    match s.reactor with
    | .sockopt _ c => answer == none || answer == some 0 || decide (s.Unsent c)
    | _ => true
  | .reg granted =>
    match s.reactor with
    | .adding _ call _ =>
      decide (s.Spares call.conn) &&
        if call.ops.isEmpty then granted || decide (s.Unsent call.conn) else decide (s.Alone none)
    | .modifying _ call => call.ops.isEmpty || decide (s.Alone none)
    | _ => true
  | .sendReg t =>
    match s.call (some t) with
    | some call => call.ops.isEmpty || decide (s.Alone (some t) ∧ s.Spares call.conn)
    | none => true
  | _ => true

/-- The environment in which the first entry is used by one call at a time. -/
abbrev ExclusiveStores (s : Regs) (l : RegLabel) : Prop :=
  NonzeroAccept l ∧ exclusive s l = true

/-- Interests and dispatched entries are those they should be. -/
structure Intact (s : Regs) : Prop where
  /-- An interest names the object the descriptor was stored in. -/
  owner : ∀ fd ev, s.srv.kernel.reg fd = some ev → ev.ptr = s.holder fd
  /-- It has the mask its caller asked for. -/
  mask : ∀ fd ev, s.srv.kernel.reg fd = some ev → ev.events = s.asked fd
  /-- An entry is dispatched to the connection it was reported for. -/
  dispatched : ∀ entry ∈ s.dispatches, entry.2 = entry.1

/-- A change of other data. -/
theorem Intact.congr {s s' : Regs} (intact : Intact s)
    (reg : s'.srv.kernel.reg = s.srv.kernel.reg) (holder : s'.holder = s.holder)
    (asked : s'.asked = s.asked) (dispatches : s'.dispatches = s.dispatches) : Intact s' := by
  obtain ⟨owner, mask, dispatched⟩ := intact
  constructor
  · rw [reg, holder]
    exact owner
  · rw [reg, asked]
    exact mask
  · rw [dispatches]
    exact dispatched

/-- An interest left by closing a descriptor was there before. -/
theorem Intact.closed {s s' : Regs} {reg : Fd → Option EpollEvent} (intact : Intact s)
    (closing : ∀ fd ev, reg fd = some ev → s.srv.kernel.reg fd = some ev)
    (after : s'.srv.kernel.reg = reg) (holder : s'.holder = s.holder) (asked : s'.asked = s.asked)
    (dispatches : s'.dispatches = s.dispatches) : Intact s' := by
  constructor
  · intro fd ev registered
    rw [holder]
    exact intact.owner fd ev (closing fd ev (after ▸ registered))
  · intro fd ev registered
    rw [asked]
    exact intact.mask fd ev (closing fd ev (after ▸ registered))
  · rw [dispatches]
    exact intact.dispatched

/-! ## An accept on its way -/

/-- The object the reactor gave a descriptor that is not registered yet, and the descriptor. -/
def Place.pending : Place → Option (ConnPtr × Fd)
  | .adding _ call clientSock => some (call.conn, clientSock)
  | _ => none

namespace Regs

variable {s s' : Regs} {r : Roster Fd} {c : ConnPtr} {sock : Fd}

/-- The object was taken from a roster that knows nothing of it yet. -/
structure Accepting (s : Regs) (r : Roster Fd) (c : ConnPtr) (sock : Fd) : Prop where
  /-- It was the next to be lent. -/
  next : r.Next c s.srv.pool s.srv.nconn
  /-- Its descriptor was free. -/
  closed : ¬r.opened sock
  /-- It is one a client may be given. -/
  offered : sock ∈ clientFds
  /-- It is open and stored in the object, not registered. -/
  roster : s.srv.roster = r.take c s.srv.pool s.srv.nconn sock
  /-- No other object had it since. -/
  held : s.holder sock = c

/-- The server's roster is the given one, or one accept ahead of it. -/
def Behind (s : Regs) (r : Roster Fd) : Prop :=
  match s.reactor.pending with
  | none => s.srv.roster = r
  | some (c, sock) => s.Accepting r c sock

/-- A change of neither the roster nor the accept. -/
theorem Behind.congr (behind : s.Behind r) (roster : s'.srv.roster = s.srv.roster)
    (pending : s'.reactor.pending = s.reactor.pending) (holder : s'.holder = s.holder) :
    s'.Behind r := by
  have pool : s'.srv.pool = s.srv.pool := congrArg Roster.pool roster
  have nconn : s'.srv.nconn = s.srv.nconn := congrArg Roster.size roster
  unfold Behind at behind ⊢
  rw [pending]
  split at behind
  · exact roster.trans behind
  · obtain ⟨next, closed, offered, taken, held⟩ := behind
    refine ⟨?_, closed, offered, ?_, holder ▸ held⟩
    · rw [pool, nconn]
      exact next
    · rw [roster, pool, nconn]
      exact taken

/-- With no accept on its way the roster is the server's. -/
theorem Behind.roster (behind : s.Behind r) (settled : s.reactor.pending = none) :
    s.srv.roster = r := by
  rwa [Behind, settled] at behind

/-- A registered open descriptor of the object is registered for the object. -/
def Owns (s : Regs) (c : ConnPtr) : Prop :=
  (s.srv.kernel.sock (s.srv.conns c).fd).isSome = true →
    (s.srv.kernel.reg (s.srv.conns c).fd).isSome = true →
    (s.srv.kernel.reg (s.srv.conns c).fd).map EpollEvent.ptr = some c

/-- So it is with a settled object of the server. -/
theorem owns_of_settled (settled : s.srv.roster.Settled c) : s.Owns c :=
  fun isOpen _ => settled.live isOpen

/-- And with a live object, or one without a descriptor, whatever accept is on its way. -/
theorem Behind.owns (behind : s.Behind r) (kept : Kept r)
    (known : r.Live c ∨ r.handle c = -1) : s.Owns c := by
  unfold Behind at behind
  split at behind
  · apply owns_of_settled
    rw [behind]
    exact known.imp_right fun parked => by rw [parked]; exact kept.closed_neg_one
  · rename_i taken sock _
    obtain ⟨next, closed, offered, roster, _⟩ := behind
    intro isOpen registered
    have opened : (r.take taken s.srv.pool s.srv.nconn sock).opened (s.srv.conns c).fd :=
      roster ▸ isOpen
    have owner : s.srv.roster.owner = r.owner := by rw [roster]; rfl
    have handle : (s.srv.conns c).fd = Function.update r.handle taken sock c :=
      congrFun (congrArg Roster.handle roster) c
    by_cases same : c = taken
    · -- the descriptor of the object taken is not registered
      rw [same, Function.update_self] at handle
      obtain ⟨ev, found⟩ := Option.isSome_iff_exists.mp registered
      have owned : r.owner sock = some ev.ptr := by
        rw [← owner, Server.roster_owner, ← handle, ← same, found, Option.map_some]
      exact absurd (kept.sound.isOpen _ _ owned) closed
    · rw [Function.update_of_ne same] at handle
      rcases known with live | parked
      · rw [handle, ← Server.roster_owner, owner]
        exact live
      · rw [handle, parked] at opened
        rcases opened with own | isOpen
        · have positive := (mem_clientFds.mp offered).1
          rw [← own] at positive
          exact absurd positive (by decide)
        · exact absurd isOpen kept.closed_neg_one

/-! ## The invariant -/

/-- What holds between any two steps, with a roster that knows nothing of an accept on its way. -/
structure Regular (s : Regs) (r : Roster Fd) : Prop where
  /-- Registrations, descriptors and pool agree. -/
  kept : Kept r
  /-- The server has the roster, or is one accept ahead. -/
  behind : s.Behind r
  /-- A connected object is live. -/
  connected : ∀ c < s.srv.nconn, (s.srv.conns c).activity = .connected → r.Live c
  /-- The batch as it was reported is as the reactor needs it. -/
  scheduled : Scheduled r s.reported s.reactor.pc
  /-- Entries still to be loaded are as they were reported. -/
  loads : ∀ j, s.reactor.pc.Loads j → (s.srv.event j).ptr = s.reported j
  /-- The object of a sender's call is live or has no descriptor. -/
  flying : ∀ t, ∀ call ∈ s.call (some t), r.Live call.conn ∨ r.handle call.conn = -1
  /-- Calls in progress are making their arguments. -/
  ready : ∀ thread, ∀ call ∈ s.call thread, call.Ready (s.srv.event 0)
  /-- Interests and dispatched entries are those they should be. -/
  intact : Intact s

/-- Another thread's call has not begun while one is alone. -/
theorem Alone.idle {thread other : Option Nat} {call : RegCall} (alone : s.Alone thread)
    (distinct : other ≠ thread) (member : call ∈ s.call other) : call.begun = false := by
  apply alone other _ distinct call member
  cases other with
  | none => exact List.mem_cons_self
  | some t =>
    refine List.mem_cons_of_mem _ (List.mem_map.mpr ⟨t, List.mem_range.mpr ?_, rfl⟩)
    by_contra outside
    have absent : s.senders[t]? = none := List.getElem?_eq_none (Nat.le_of_not_lt outside)
    simp [Regs.call, absent] at member

/-- A sender's call after another sender's changed. -/
theorem call_set {senders : List (Option RegCall)} {t u : Nat} {entry : Option RegCall}
    {call : RegCall} (member : call ∈ ((senders.set t entry)[u]?).join) :
    (u = t ∧ call ∈ entry) ∨ (u ≠ t ∧ call ∈ (senders[u]?).join) := by
  by_cases same : u = t
  · subst same
    by_cases inside : u < senders.length
    · rw [List.getElem?_set_self inside] at member
      exact .inl ⟨rfl, member⟩
    · rw [List.getElem?_eq_none (by simpa using inside)] at member
      contradiction
  · rw [List.getElem?_set_ne (Ne.symm same)] at member
    exact .inr ⟨same, member⟩

/-- A sender's call is for another object than one no sender is in a call for. -/
theorem Unsent.ne {t : Nat} {call : RegCall} (unsent : s.Unsent c)
    (member : call ∈ s.call (some t)) : call.conn ≠ c := by
  have joined : (s.senders[t]?).join = some call := member
  exact unsent _ (List.mem_of_getElem? (Option.join_eq_some_iff.mp joined)) call rfl

/-- A step that changes neither the roster nor the entries: calls may end, or start for an object
that is live. -/
theorem Regular.congr (regular : s.Regular r) (roster : s'.srv.roster = s.srv.roster)
    (pending : s'.reactor.pending = s.reactor.pending) (holder : s'.holder = s.holder)
    (activity : ∀ c, (s'.srv.conns c).activity = .connected → (s.srv.conns c).activity = .connected)
    (reported : s'.reported = s.reported) (event : s'.srv.event = s.srv.event)
    (scheduled : Scheduled r s.reported s'.reactor.pc)
    (loads : ∀ j, s'.reactor.pc.Loads j → s.reactor.pc.Loads j)
    (calls : ∀ thread, ∀ call ∈ s'.call thread, call ∈ s.call thread ∨
      call.Ready (s.srv.event 0) ∧ (thread = none ∨ r.Live call.conn))
    (intact : Intact s') : s'.Regular r where
  kept := regular.kept
  behind := regular.behind.congr roster pending holder
  connected := by
    intro c known connected
    have nconn : s'.srv.nconn = s.srv.nconn := congrArg Roster.size roster
    exact regular.connected c (nconn ▸ known) (activity c connected)
  scheduled := reported ▸ scheduled
  loads := by
    intro j loaded
    rw [event, reported]
    exact regular.loads j (loads j loaded)
  flying := by
    intro t call member
    rcases calls (some t) call member with old | ⟨_, reactor | live⟩
    · exact regular.flying t call old
    · contradiction
    · exact .inl live
  ready := by
    intro thread call member
    rw [event]
    rcases calls thread call member with old | ⟨ready, _⟩
    · exact regular.ready thread call old
    · exact ready
  intact := intact

/-! ## Stores -/

/-- An access by a call that is alone keeps the other calls ready. -/
theorem Regular.access {thread : Option Nat} {call : RegCall} {op : EvOp} {rest : List EvOp}
    (regular : s.Regular r) (member : call ∈ s.call thread) (ops : call.ops = op :: rest)
    (alone : s.Alone thread) (spares : s.reactor.pc.Loads 0 → call.conn = s.reported 0)
    (srv : s'.srv = (Regs.access s.srv call op rest).1) (pc : s'.reactor.pc = s.reactor.pc)
    (pending : s'.reactor.pending = s.reactor.pending) (holder : s'.holder = s.holder)
    (asked : s'.asked = s.asked) (reported : s'.reported = s.reported)
    (dispatches : s'.dispatches = s.dispatches)
    (calls : ∀ other, ∀ call' ∈ s'.call other,
      (other = thread ∧ call' = (Regs.access s.srv call op rest).2) ∨
        (other ≠ thread ∧ call' ∈ s.call other)) : s'.Regular r := by
  have ready := regular.ready thread call member
  have later : ∀ j, j ≠ 0 → s'.srv.event j = s.srv.event j := fun j positive => by
    rw [srv]
    exact Function.update_of_ne positive _ _
  constructor
  · exact regular.kept
  · exact regular.behind.congr (by rw [srv]; rfl) pending holder
  · rw [srv]
    exact regular.connected
  · rw [reported, pc]
    exact regular.scheduled
  · intro j loaded
    rw [pc] at loaded
    rw [reported]
    by_cases first : j = 0
    · subst first
      rcases ready.access_ptr ops with old | own
      · rw [srv, old]
        exact regular.loads 0 loaded
      · rw [srv, own]
        exact spares loaded
    · rw [later j first]
      exact regular.loads j loaded
  · intro t call' member'
    rcases calls (some t) call' member' with ⟨own, rfl⟩ | ⟨_, old⟩
    · exact regular.flying t call (own ▸ member)
    · exact regular.flying t call' old
  · intro other call' member'
    rcases calls other call' member' with ⟨_, rfl⟩ | ⟨distinct, old⟩
    · rw [srv]
      exact ready.access ops
    · exact (regular.ready other call' old).elsewhere (alone.idle distinct old)
  · exact regular.intact.congr (by rw [srv]; rfl) holder asked dispatches

/-! ## Registrations -/

/-- The `epoll_ctl` of a call on an object that owns its descriptor changes no table, and leaves
interests as they should be. -/
theorem Regular.ctlModify {thread : Option Nat} {call : RegCall} (regular : s.Regular r)
    (member : call ∈ s.call thread) (ops : call.ops = []) (owns : s.Owns call.conn) :
    ∃ kernel asked, s.ctlModify call = { s with srv := { s.srv with kernel }, asked } ∧
      s.srv.kernel.SameTable kernel ∧
      Intact { s with srv := { s.srv with kernel }, asked } := by
  have entry := (regular.ready thread call member).entry ops
  have table : s.srv.kernel.SameTable
      (s.srv.kernel.ctlMod (s.srv.conns call.conn).fd (s.srv.event 0)).2 :=
    Kernel.sameTable_ctlMod (by rw [entry]; exact owns)
  unfold Regs.ctlModify
  rcases s.srv.kernel.ctlMod_cases (s.srv.conns call.conn).fd (s.srv.event 0) with
    ⟨isOpen, registered, stored⟩ | failed
  · rw [stored] at table ⊢
    refine ⟨_, _, rfl, table, ?_⟩
    obtain ⟨old, found⟩ := Option.isSome_iff_exists.mp registered
    have owned := owns isOpen registered
    rw [found, Option.map_some, Option.some.injEq] at owned
    have held : call.conn = s.holder (s.srv.conns call.conn).fd :=
      owned.symm.trans (regular.intact.owner _ old found)
    refine ⟨fun fd ev stored => ?_, fun fd ev stored => ?_, regular.intact.dispatched⟩
    · by_cases same : fd = (s.srv.conns call.conn).fd
      · subst same
        simp only [Kernel.register, Function.update_self, Option.some.injEq] at stored
        rw [← stored, entry]
        exact held
      · simp only [Kernel.register, Function.update_of_ne same] at stored
        exact regular.intact.owner fd ev stored
    · by_cases same : fd = (s.srv.conns call.conn).fd
      · subst same
        simp only [Kernel.register, Function.update_self, Option.some.injEq] at stored
        simp only [if_true, Function.update_self]
        rw [← stored, entry]
      · simp only [Kernel.register, Function.update_of_ne same] at stored
        simp only [if_true, Function.update_of_ne same]
        exact regular.intact.mask fd ev stored
  · rw [failed] at table ⊢
    exact ⟨_, _, rfl, table, regular.intact.owner, regular.intact.mask, regular.intact.dispatched⟩

end Regs

end EpollNet
