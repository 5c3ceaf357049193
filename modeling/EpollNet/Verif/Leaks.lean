import EpollNet.Basis.Simulation
import EpollNet.Verif.Outgoing

/-!
# What leaks

Every block that was allocated for an item, for what it carries or for a payload is with an item,
in a send slot or freed, or it is lost. Two steps lose a block: `ServerSend` puts its payload on
top of one that waits, and `event_read` has no item to put its buffer into. Nothing else does, and
what is lost stays lost.
-/

namespace EpollNet

open EpollNet.Basis

variable {s s' : State} {l : Label} {a : Nat}

/-! ## Places -/

/-- A created object's slot refers to the address. -/
def Server.Pends (s : Server) (a : Nat) : Prop := ∃ c, c < s.nconn ∧ s.waiting c = some a

/-- The address is with an item, freed or in a slot. -/
def State.Placed (s : State) (a : Nat) : Prop := a ∈ s.blocks ∨ s.srv.Pends a

/-- The address was allocated and is in none of these places. -/
def State.Lost (s : State) (a : Nat) : Prop := a < s.srv.heap.next ∧ ¬s.Placed a

/-- The step loses the address: `ServerSend` finds it waiting in the slot it fills, or `event_read`
allocates it for bytes it then has no item for. -/
def State.Loses (s : State) (l : Label) (a : Nat) : Prop :=
  match l with
  | .send c _ len _ => c < s.srv.nconn ∧ 0 < len ∧ (s.srv.conns c).activity = .connected ∧
      s.srv.waiting c = some a
  | .read input => input.strGranted = true ∧ input.itemGranted = false ∧ a = s.srv.heap.next ∧
      ∃ fr c recvlen, s.reactor = .read fr c ∧ hasAny eventReadBits fr.events = true ∧
        s.srv.recvlen c input = some recvlen ∧ 0 < recvlen
  | _ => False

/-- New addresses get a place, old ones keep theirs, except those that are lost. -/
theorem lost_iff {loses : Nat → Prop} (next : s.srv.heap.next ≤ s'.srv.heap.next)
    (inside : ∀ a, loses a → a < s'.srv.heap.next)
    (places : ∀ a, s'.Placed a ↔
      ¬loses a ∧ (s.Placed a ∨ s.srv.heap.next ≤ a ∧ a < s'.srv.heap.next)) (a : Nat) :
    s'.Lost a ↔ s.Lost a ∨ loses a := by
  unfold State.Lost
  rw [places]
  by_cases lost : loses a
  · exact ⟨fun _ => .inr lost, fun _ => ⟨inside a lost, fun placed => placed.1 lost⟩⟩
  · by_cases placed : s.Placed a
    · simp [lost, placed]
    · simp only [lost, placed, not_false_eq_true, true_and, false_or, and_true, or_false, not_and,
        not_lt]
      omega

/-- From one state to the other nothing is lost. -/
def LosesNone (s s' : State) : Prop := ∀ a, s'.Lost a ↔ s.Lost a

/-- Nothing is allocated, and the places are what they were. -/
theorem losesNone_congr (next : s'.srv.heap.next = s.srv.heap.next)
    (places : ∀ a, s'.Placed a ↔ s.Placed a) : LosesNone s s' := by
  intro a
  unfold State.Lost
  rw [next, places]

/-! ## Slots -/

/-- Objects replaced by ones with the same pointer. -/
theorem pends_congr {srv srv' : Server} (nconn : srv'.nconn = srv.nconn)
    (ptr : ∀ c, c < srv.nconn → (srv'.conns c).sendptr = (srv.conns c).sendptr) (a : Nat) :
    srv'.Pends a ↔ srv.Pends a := by
  unfold Server.Pends Server.waiting
  rw [nconn]
  constructor
  · rintro ⟨c, known, waits⟩
    exact ⟨c, known, by rwa [← ptr c known]⟩
  · rintro ⟨c, known, waits⟩
    exact ⟨c, known, by rwa [ptr c known]⟩

/-- One object replaced by one with the same pointer. -/
theorem ptr_update {conns : ConnPtr → ConnObj} {c : ConnPtr} {obj : ConnObj}
    (same : obj.sendptr = (conns c).sendptr) (p : ConnPtr) :
    (Function.update conns c obj p).sendptr = (conns p).sendptr := by
  by_cases equal : p = c
  · rw [equal, Function.update_self, same]
  · rw [Function.update_of_ne equal]

/-- An accept takes an object with what waits in it, or one in which nothing does. -/
theorem pends_taken {srv srv' : Server} {c nconn : ConnPtr} {rest : List ConnPtr} {obj : ConnObj}
    (existing : srv.Existing) (next : srv.roster.Next c rest nconn) (size : srv'.nconn = nconn)
    (conns : srv'.conns = Function.update srv.conns c obj)
    (taken : obj.sendptr = (srv.takenConn c).sendptr) (a : Nat) :
    srv'.Pends a ↔ srv.Pends a := by
  constructor
  · rintro ⟨d, known, waits⟩
    exact ⟨d, waiting_taken existing next size conns taken d known a waits⟩
  · rintro ⟨d, known, waits⟩
    refine ⟨d, size ▸ lt_of_lt_of_le known next.size_le, ?_⟩
    rw [Server.waiting, conns]
    by_cases same : d = c
    · rw [same, Function.update_self, taken, takenConn_of_lt next (same ▸ known), ← same]
      exact waits
    · rwa [Function.update_of_ne same]

/-! ## Steps that lose nothing -/

/-- A step of the reactor that allocates and frees nothing. -/
theorem losesNone_reactor {srv : Server} {pc : Pc} (before : s.reactor.pushing = [])
    (after : pc.pushing = []) (rqueue : srv.rqueue = s.srv.rqueue) (heap : srv.heap = s.srv.heap)
    (waits : ∀ a, srv.Pends a ↔ s.srv.Pends a) :
    LosesNone s { s with srv, reactor := pc } := by
  have blocks : State.blocks { s with srv, reactor := pc } = s.blocks :=
    blocks_congr (after.trans before.symm) rqueue rfl (congrArg Heap.freed heap)
  refine losesNone_congr (congrArg Heap.next heap) fun a => ?_
  unfold State.Placed
  rw [blocks]
  exact or_congr_right (waits a)

/-- Items that are moved about. -/
theorem losesNone_moved (blocks : s'.blocks.Perm s.blocks)
    (next : s'.srv.heap.next = s.srv.heap.next) (conns : s'.srv.conns = s.srv.conns)
    (nconn : s'.srv.nconn = s.srv.nconn) : LosesNone s s' := by
  refine losesNone_congr next fun a => or_congr blocks.mem_iff ?_
  exact pends_congr nconn (fun c _ => by rw [conns]) a

/-- Every step but those of `event_read`, `event_write` and `ServerSend`. -/
theorem losesNone_quiet (stepped : Step s l s') (known : Known s)
    (unread : ∀ input, l ≠ .read input)
    (unwritten : ∀ script, l ≠ .write script)
    (unsent : ∀ c data len granted, l ≠ .send c data len granted) : LosesNone s s' := by
  cases stepped with
  | waited at_blocked _ =>
    refine losesNone_reactor (by rw [at_blocked]; rfl) ?_ rfl rfl (fun _ => Iff.rfl)
    unfold Pc.begin
    split <;> rfl
  | tested at_test =>
    exact losesNone_reactor (by rw [at_test]; rfl) (pushing_dispatch _ _) rfl rfl (fun _ => Iff.rfl)
  | acceptLooping at_accept =>
    exact losesNone_reactor (by rw [at_accept]; rfl) rfl rfl rfl (fun _ => Iff.rfl)
  | acceptNone at_accept =>
    exact losesNone_reactor (by rw [at_accept]; rfl) (pushing_resume _) rfl rfl (fun _ => Iff.rfl)
  | @acceptDropped fr input inc at_accept _ _ =>
    obtain ⟨kernel, _, dropped⟩ := s.srv.dropped_frame inc
    rw [dropped]
    exact losesNone_reactor (by rw [at_accept]; rfl) (pushing_resume _) rfl rfl (fun _ => Iff.rfl)
  | @acceptRefused fr input inc c rest nconn at_accept _ _ next _ =>
    obtain ⟨kernel, obj, taken, _, refused⟩ := s.srv.refused_frame inc c rest nconn
    rw [refused]
    exact losesNone_reactor (by rw [at_accept]; rfl) (pushing_resume _) rfl rfl
      (pends_taken known.existing next rfl rfl taken)
  | acceptAdmitted at_accept _ _ next =>
    exact losesNone_reactor (by rw [at_accept]; rfl) rfl rfl rfl
      (pends_taken known.existing next rfl rfl rfl)
  | sockoptFailed at_sockopt _ =>
    exact losesNone_reactor (by rw [at_sockopt]; rfl) (pushing_resume _) rfl rfl (fun _ => Iff.rfl)
  | sockoptConnected at_sockopt _ =>
    exact losesNone_reactor (by rw [at_sockopt]; rfl) rfl rfl rfl
      (pends_congr rfl fun p _ => ptr_update (by rfl) p)
  | sockoptSevered at_sockopt _ _ =>
    exact losesNone_reactor (by rw [at_sockopt]; rfl) rfl rfl rfl
      (pends_congr rfl fun p _ => ptr_update (by rfl) p)
  | @pushed fr c item at_push =>
    refine losesNone_moved ?_ rfl rfl rfl
    refine List.Perm.append_right _ (List.Perm.flatMap_right Item.blocks ?_)
    unfold State.items
    rw [at_push]
    show (s.srv.rqueue ++ [item] ++ s.workers.filterMap Worker.carries).Perm
      ([item] ++ s.srv.rqueue ++ s.workers.filterMap Worker.carries)
    exact List.perm_append_comm.append_right _
  | posted at_post =>
    exact losesNone_reactor (by rw [at_post]; rfl) rfl rfl rfl (fun _ => Iff.rfl)
  | arrived => exact losesNone_moved (.of_eq (blocks_congr rfl rfl rfl rfl)) rfl rfl rfl
  | worker moved =>
    obtain ⟨blocks, next⟩ := blocks_worker moved
    obtain ⟨_, rqueue, sem, heap, srv⟩ := moved.frame
    exact losesNone_moved blocks next (by rw [srv]) (by rw [srv])
  | @interrupted w at_wait =>
    have items : (s.setWorker w .size).items.Perm s.items := items_turn at_wait rfl rfl rfl rfl
    exact losesNone_moved ((items.flatMap_right Item.blocks).append_right _) rfl rfl rfl
  | @readSkipped _ _ input _ _ => exact absurd rfl (unread input)
  | @readLooping _ _ input _ _ _ => exact absurd rfl (unread input)
  | @readEnded _ _ input _ _ _ => exact absurd rfl (unread input)
  | @readFinished _ _ input _ _ _ _ _ _ _ => exact absurd rfl (unread input)
  | @readItem _ _ input _ _ _ _ _ _ _ _ _ _ _ => exact absurd rfl (unread input)
  | @writeIdle _ _ script _ => exact absurd rfl (unwritten script)
  | @writeLooping _ _ script _ _ _ _ _ => exact absurd rfl (unwritten script)
  | @written _ _ script _ _ _ _ _ _ _ _ _ _ _ => exact absurd rfl (unwritten script)
  | @sendIdle c data len granted => exact absurd rfl (unsent c data len granted)
  | @sent c data len granted _ _ _ _ _ _ _ _ _ => exact absurd rfl (unsent c data len granted)

/-- A buffer that waits is freed, and its slot emptied. -/
theorem losesNone_unload {srv : Server} {pc : Pc} {c : ConnPtr} {b : Buf} {obj : ConnObj}
    (known : c < s.srv.nconn) (stored : (s.srv.conns c).sendptr = some b)
    (before : s.reactor.pushing = []) (after : pc.pushing = [])
    (rqueue : srv.rqueue = s.srv.rqueue) (nconn : srv.nconn = s.srv.nconn)
    (heap : srv.heap = s.srv.heap.free b.addr)
    (conns : srv.conns = Function.update s.srv.conns c obj) (empty : obj.sendptr = none) :
    LosesNone s { s with srv, reactor := pc } := by
  have items : State.items { s with srv, reactor := pc } = s.items :=
    items_congr (after.trans before.symm) rqueue rfl
  have blocks : ∀ a, a ∈ State.blocks { s with srv, reactor := pc } ↔
      a = b.addr ∨ a ∈ s.blocks := by
    intro a
    rw [State.blocks, items]
    simp only [heap, Heap.free, State.blocks, List.mem_append, List.mem_cons]
    exact or_left_comm
  have waited : s.srv.waiting c = some b.addr := by
    rw [Server.waiting, stored]
    rfl
  refine losesNone_congr (by rw [heap]; rfl) fun a => ?_
  unfold State.Placed
  rw [blocks]
  constructor
  · rintro ((rfl | inside) | ⟨d, exists', waits⟩)
    · exact .inr ⟨c, known, waited⟩
    · exact .inl inside
    · exact .inr ⟨d, nconn ▸ exists', waiting_update conns (.inr empty) waits⟩
  · rintro (inside | ⟨d, exists', waits⟩)
    · exact .inl (.inr inside)
    · by_cases same : d = c
      · rw [same, waited] at waits
        exact .inl (.inl (Option.some.inj waits).symm)
      · refine .inr ⟨d, nconn ▸ exists', ?_⟩
        rwa [Server.waiting, conns, Function.update_of_ne same]

/-- `event_write` frees the buffer it takes out of its slot, or takes none out. -/
theorem losesNone_write {script : WriteScript} (stepped : Step s (.write script) s')
    (known : Known s) : LosesNone s s' := by
  have within := known.within
  cases stepped with
  | writeIdle at_write =>
    exact losesNone_reactor (by rw [at_write]; rfl) (pushing_resume _) rfl rfl (fun _ => Iff.rfl)
  | writeLooping at_write _ _ _ =>
    exact losesNone_reactor (by rw [at_write]; rfl) rfl rfl rfl (fun _ => Iff.rfl)
  | @written fr c _ b heap obj flags at_write _ stored _ _ _ done =>
    rw [at_write] at within
    have before : s.reactor.pushing = [] := by rw [at_write]; rfl
    rcases done with ⟨rfl, rfl⟩ | ⟨rfl, empty⟩
    · exact losesNone_reactor before (pushing_resume _) rfl rfl
        (pends_congr rfl fun p _ => ptr_update (by rfl) p)
    · exact losesNone_unload within.1 stored before (pushing_resume _) rfl rfl rfl rfl empty

/-! ## Reading -/

/-- `CStr_Malloc` of some bytes: a buffer at the next address, or nothing. -/
theorem cStrMalloc_some (h : Heap) (granted : Bool) (m : Memory) {len : Int} (positive : 0 < len)
    (small : len < 2 ^ 64) :
    cStrMalloc h granted (some m) len = if granted = true then
      (some ⟨h.next, ⟨len.toNat, 0, m.copy len.toNat ++ [0]⟩⟩, { h with next := h.next + 1 })
      else (none, h) := by
  have size : (len % 2 ^ 64).toNat = len.toNat := by omega
  have some' : 0 < len.toNat := by omega
  unfold cStrMalloc cStrCreate
  simp only [size, some', if_true]

/-- `readData` counts at most twice what it asks for. -/
theorem readLoop_bounded {fd : Fd} {len : Nat} {script : List ReadAnswer} {nLen : Nat}
    {ptr : Memory} {k : Kernel} {ret : Int} (counted : nLen = 0 ∨ nLen = len)
    (returned : (readLoop fd len script nLen ptr k).ret = some ret) : ret ≤ 2 * len := by
  induction script generalizing nLen ptr k with
  | nil => contradiction
  | cons answer rest ih =>
    cases round fd len answer k with
    | again looped _ =>
      rw [looped] at returned
      exact ih counted returned
    | blocked looped _ =>
      rw [looped] at returned
      have same : -2 = ret := Option.some.inj returned
      omega
    | got got k' short _ looped _ =>
      rw [looped] at returned
      split at returned
      · split at returned
        · rename_i full
          exact ih (.inr full) returned
        · have same : ((nLen + got.length : Nat) : Int) = ret := Option.some.inj returned
          omega
      · have same : 0 = ret := Option.some.inj returned
        omega

section Receiving

variable {srv : Server} {c : ConnPtr} {input : Server.ReadInput} {recvlen : Int}

/-- `event_read` has not returned. -/
theorem eventReadRecv_looping (returned : srv.recvlen c input = none) :
    srv.eventReadRecv c input = (.looping, srv.received c input) := by
  unfold Server.recvlen at returned
  simp only [Server.eventReadRecv, returned, Server.received, Server.readKernel]

/-- It met the end of the stream. -/
theorem eventReadRecv_ended (returned : srv.recvlen c input = some 0) :
    srv.eventReadRecv c input = (.finished, (srv.received c input).hangUp c) := by
  unfold Server.recvlen at returned
  simp only [Server.eventReadRecv, returned, if_true]
  rfl

/-- It received nothing. -/
theorem eventReadRecv_negative (returned : srv.recvlen c input = some recvlen)
    (negative : recvlen < 0) :
    srv.eventReadRecv c input = (.finished, srv.received c input) := by
  unfold Server.recvlen at returned
  have nonzero : recvlen ≠ 0 := ne_of_lt negative
  have nothing : ¬recvlen > 0 := not_lt.mpr (le_of_lt negative)
  simp only [Server.eventReadRecv, returned, nonzero, nothing, if_false, Server.received,
    Server.readKernel]

/-- It received bytes and allocates a buffer and an item for them. -/
theorem eventReadRecv_received (returned : srv.recvlen c input = some recvlen)
    (positive : 0 < recvlen) :
    ∃ (bytes : Memory) (client : Nat) (made : Option Buf × Heap),
      made = cStrMalloc srv.heap input.strGranted (some bytes) recvlen ∧
      srv.eventReadRecv c input = if input.itemGranted = true then
        (.item ⟨made.2.next, c, made.1, recvlen.toNat, client⟩,
          { srv.received c input with heap := { made.2 with next := made.2.next + 1 } })
        else (.finished, { srv.received c input with heap := made.2 }) := by
  unfold Server.recvlen at returned
  have nonzero : recvlen ≠ 0 := ne_of_gt positive
  simp only [Server.eventReadRecv, returned, nonzero, positive, if_true, if_false]
  exact ⟨_, _, _, rfl, rfl⟩

end Receiving

/-- What has a place was allocated. -/
theorem Owned.placed_lt (owned : Owned s) (placed : s.Placed a) : a < s.srv.heap.next := by
  rcases placed with inside | ⟨c, known, waits⟩
  · exact owned.below a inside
  · exact (owned.waiting c known a waits).1

/-- An item was built for what was received: its blocks are the new ones. -/
theorem lost_item {srv : Server} {pc : Pc} {history : List QueueEvent} {item : Item} (made : Nat)
    (before : s.reactor.pushing = []) (after : pc.pushing = [item])
    (rqueue : srv.rqueue = s.srv.rqueue) (conns : srv.conns = s.srv.conns)
    (nconn : srv.nconn = s.srv.nconn) (freed : srv.heap.freed = s.srv.heap.freed)
    (next : srv.heap.next = s.srv.heap.next + made)
    (own : ∀ a, a ∈ item.blocks ↔ s.srv.heap.next ≤ a ∧ a < s.srv.heap.next + made) (a : Nat) :
    State.Lost { s with srv, reactor := pc, history } a ↔ s.Lost a := by
  have blocks : ∀ a, a ∈ State.blocks { s with srv, reactor := pc, history } ↔
      a ∈ item.blocks ∨ a ∈ s.blocks := by
    intro a
    unfold State.blocks State.items
    rw [before]
    simp only [after, rqueue, freed, List.mem_append, List.flatMap_append, List.flatMap_singleton,
      List.nil_append, or_assoc]
  have places : ∀ a, State.Placed { s with srv, reactor := pc, history } a ↔
      ¬False ∧ (s.Placed a ∨ s.srv.heap.next ≤ a ∧ a < srv.heap.next) := by
    intro a
    unfold State.Placed
    rw [blocks, own, pends_congr nconn (fun c _ => by rw [conns]) a, next]
    tauto
  have law : State.Lost { s with srv, reactor := pc, history } a ↔ s.Lost a ∨ False :=
    lost_iff (by rw [next]; omega) (fun _ lost => lost.elim) places a
  rwa [or_false] at law

/-- No item was built. -/
theorem lost_unbuilt {srv : Server} {pc : Pc} {loses : Nat → Prop} (made : Nat) (owned : Owned s)
    (before : s.reactor.pushing = []) (after : pc.pushing = [])
    (rqueue : srv.rqueue = s.srv.rqueue) (conns : srv.conns = s.srv.conns)
    (nconn : srv.nconn = s.srv.nconn) (freed : srv.heap.freed = s.srv.heap.freed)
    (next : srv.heap.next = s.srv.heap.next + made)
    (lost : ∀ a, loses a ↔ s.srv.heap.next ≤ a ∧ a < s.srv.heap.next + made) (a : Nat) :
    State.Lost { s with srv, reactor := pc } a ↔ s.Lost a ∨ loses a := by
  have blocks : State.blocks { s with srv, reactor := pc } = s.blocks :=
    blocks_congr (after.trans before.symm) rqueue rfl freed
  refine lost_iff (by rw [next]; omega) (fun a gone => ?_) (fun a => ?_) a
  · rw [next]
    exact ((lost a).mp gone).2
  · have below : s.Placed a → a < s.srv.heap.next := owned.placed_lt
    have same : State.Placed { s with srv, reactor := pc } a ↔ s.Placed a := by
      unfold State.Placed
      rw [blocks, pends_congr nconn (fun c _ => by rw [conns]) a]
    rw [same, lost, next]
    constructor
    · exact fun placed => ⟨fun gone => absurd (below placed) (not_lt.mpr gone.1), .inl placed⟩
    · rintro ⟨kept, placed | new⟩
      · exact placed
      · exact absurd new kept

/-- Bytes were received: their buffer is lost if there is no item for it. -/
theorem lost_received {input : Server.ReadInput} {fr : Frame} {c : ConnPtr} {recvlen : Int}
    (owned : Owned s) (at_read : s.reactor = .read fr c)
    (reads : hasAny eventReadBits fr.events = true)
    (returned : s.srv.recvlen c input = some recvlen) (positive : 0 < recvlen) (a : Nat) :
    State.Lost (afterRead s fr c (s.srv.eventReadRecv c input)) a ↔
      s.Lost a ∨ s.Loses (.read input) a := by
  have before : s.reactor.pushing = [] := by
    rw [at_read]
    rfl
  have bounded : recvlen ≤ 2 * Server.recvbufferSize := readLoop_bounded (.inl rfl) returned
  have small : recvlen < 2 ^ 64 := by
    unfold Server.recvbufferSize at bounded
    omega
  obtain ⟨bytes, client, made, allocated, called⟩ := eventReadRecv_received returned positive
  rw [cStrMalloc_some _ _ _ positive small] at allocated
  by_cases built : input.itemGranted = true
  · rw [if_pos built] at called
    have kept : ¬s.Loses (.read input) a := by
      rintro ⟨_, refused, _⟩
      rw [built] at refused
      contradiction
    rw [called]
    refine Iff.trans ?_ (or_iff_left kept).symm
    by_cases str : input.strGranted = true
    · rw [if_pos str] at allocated
      subst allocated
      refine lost_item 2 before (by rfl) (by rfl) (by rfl) (by rfl) (by rfl) (by rfl)
        (fun a => ?_) a
      simp only [Item.blocks, Option.map_some, Option.toList_some, List.mem_cons,
        List.not_mem_nil, or_false]
      omega
    · rw [if_neg str] at allocated
      subst allocated
      refine lost_item 1 before (by rfl) (by rfl) (by rfl) (by rfl) (by rfl) (by rfl)
        (fun a => ?_) a
      simp only [Item.blocks, Option.map_none, Option.toList_none, List.mem_cons,
        List.not_mem_nil, or_false]
      omega
  · rw [if_neg built] at called
    have refused : input.itemGranted = false := Bool.eq_false_iff.mpr built
    have loses : ∀ a, s.Loses (.read input) a ↔
        input.strGranted = true ∧ a = s.srv.heap.next := by
      intro a
      constructor
      · exact fun lost => ⟨lost.1, lost.2.2.1⟩
      · exact fun lost =>
          ⟨lost.1, refused, lost.2, fr, c, recvlen, at_read, reads, returned, positive⟩
    rw [called]
    by_cases str : input.strGranted = true
    · rw [if_pos str] at allocated
      subst allocated
      refine lost_unbuilt 1 owned before (by rfl) (by rfl) (by rfl) (by rfl) (by rfl) (by rfl)
        (fun a => ?_) a
      rw [loses]
      simp only [str, true_and]
      omega
    · rw [if_neg str] at allocated
      subst allocated
      refine lost_unbuilt 0 owned before (by rfl) (by rfl) (by rfl) (by rfl) (by rfl) (by rfl)
        (fun a => ?_) a
      rw [loses]
      simp only [str, Bool.false_eq_true, false_and, false_iff]
      omega

/-- `event_read` loses the buffer it has no item for, and nothing else. -/
theorem lost_read {input : Server.ReadInput} (stepped : EpollNet.step s (.read input) = some s')
    (owned : Owned s) (a : Nat) : s'.Lost a ↔ s.Lost a ∨ s.Loses (.read input) a := by
  simp only [EpollNet.step] at stepped
  split at stepped
  · rename_i fr c at_read
    have before : s.reactor.pushing = [] := by
      rw [at_read]
      rfl
    -- nothing is lost when nothing is received
    have spared : LosesNone s s' → (∀ recvlen, hasAny eventReadBits fr.events = true →
        s.srv.recvlen c input = some recvlen → recvlen ≤ 0) →
        (s'.Lost a ↔ s.Lost a ∨ s.Loses (.read input) a) := by
      intro none idle
      have kept : ¬s.Loses (.read input) a := by
        rintro ⟨_, _, _, fr', c', recvlen, at_read', reads, returned, positive⟩
        rw [at_read] at at_read'
        obtain ⟨rfl, rfl⟩ := Pc.read.inj at_read'
        exact absurd positive (not_lt.mpr (idle recvlen reads returned))
      exact (none a).trans (or_iff_left kept).symm
    split at stepped
    · rename_i reads
      obtain rfl := Option.some.inj stepped
      have quiet : ∀ pc, pc.pushing = [] →
          LosesNone s { s with srv := s.srv.received c input, reactor := pc } := fun pc after =>
        losesNone_reactor before after rfl rfl fun _ => Iff.rfl
      cases returned : s.srv.recvlen c input with
      | none =>
        rw [eventReadRecv_looping returned] at spared ⊢
        exact spared (quiet _ rfl) fun _ _ other => by rw [returned] at other; contradiction
      | some recvlen =>
        have only : ∀ other, s.srv.recvlen c input = some other → other = recvlen :=
          fun other again => Option.some.inj (again.symm.trans returned)
        rcases Int.lt_trichotomy recvlen 0 with negative | zero | positive
        · rw [eventReadRecv_negative returned negative] at spared ⊢
          refine spared (quiet _ rfl) fun other _ again => ?_
          exact only other again ▸ le_of_lt negative
        · subst zero
          rw [eventReadRecv_ended returned] at spared ⊢
          obtain ⟨kernel, obj, kept, _, ended⟩ := (s.srv.received c input).hangUp_frame c
          rw [ended] at spared ⊢
          refine spared (losesNone_reactor before rfl rfl rfl ?_) fun other _ again => ?_
          · exact pends_congr rfl fun p _ => ptr_update kept p
          · exact le_of_eq (only other again)
        · exact lost_received owned at_read reads returned positive a
    · rename_i skips
      obtain rfl := Option.some.inj stepped
      refine spared (losesNone_reactor before rfl rfl rfl fun _ => Iff.rfl) fun _ reads => ?_
      exact absurd reads skips
  · contradiction

/-! ## Sending -/

/-- `CStr_Malloc` of a payload: a buffer at the next address, or nothing. -/
theorem cStrMalloc_cases (h : Heap) (granted : Bool) (data : Option Memory) {len : Int}
    (positive : 0 < len) (small : len < 2 ^ 64) :
    cStrMalloc h granted data len = (none, h) ∨
      ∃ b, cStrMalloc h granted data len = (some b, { h with next := h.next + 1 }) ∧
        b.addr = h.next := by
  cases data with
  | none => exact .inl rfl
  | some m =>
    rw [cStrMalloc_some h granted m positive small]
    cases granted with
    | false => exact .inl rfl
    | true => exact .inr ⟨_, rfl, rfl⟩

/-- `ServerSend` on a connected object. -/
theorem serverSend_connected {srv : Server} {c : ConnPtr} {len : Int} (data : Option Memory)
    (granted : Bool) (goes : len > 0 ∧ (srv.conns c).activity = .connected) :
    ∃ sent, srv.serverSend c data len granted = (({ srv with
      heap := (cStrMalloc srv.heap granted data len).2
      conns := Function.update srv.conns c { srv.conns c with
        sendptr := (cStrMalloc srv.heap granted data len).1, sendlen := len.toNat }
      sent } : Server).epollEventModifyConn c eventWriteBits).2 := by
  simp only [Server.serverSend, Server.serverSendStore, if_pos goes]
  exact ⟨_, rfl⟩

/-- A payload takes the place of what waits in the slot. -/
theorem lost_store {srv : Server} {c : ConnPtr} {obj : ConnObj} (owned : Owned s)
    (known : c < s.srv.nconn) (rqueue : srv.rqueue = s.srv.rqueue)
    (nconn : srv.nconn = s.srv.nconn) (conns : srv.conns = Function.update s.srv.conns c obj)
    (freed : srv.heap.freed = s.srv.heap.freed)
    (made : obj.sendptr = none ∧ srv.heap.next = s.srv.heap.next ∨
      ∃ b, obj.sendptr = some b ∧ b.addr = s.srv.heap.next ∧
        srv.heap.next = s.srv.heap.next + 1) (a : Nat) :
    State.Lost { s with srv } a ↔ s.Lost a ∨ s.srv.waiting c = some a := by
  have blocks : State.blocks { s with srv } = s.blocks := blocks_congr rfl rqueue rfl freed
  have own : srv.waiting c = obj.sendptr.map Buf.addr := by
    rw [Server.waiting, conns, Function.update_self]
  have other : ∀ d, d ≠ c → srv.waiting d = s.srv.waiting d := by
    intro d distinct
    rw [Server.waiting, conns, Function.update_of_ne distinct]
    rfl
  have fresh : ∀ a, srv.waiting c = some a ↔
      s.srv.heap.next ≤ a ∧ a < srv.heap.next := by
    intro a
    rw [own]
    rcases made with ⟨none, next⟩ | ⟨b, some', addr, next⟩
    · rw [none, next]
      simp
    · rw [some', next, Option.map_some, Option.some.injEq, addr]
      omega
  have grows : s.srv.heap.next ≤ srv.heap.next := by
    rcases made with ⟨_, next⟩ | ⟨_, _, _, next⟩ <;> omega
  have old : ∀ a, s.srv.waiting c = some a → a < s.srv.heap.next ∧ a ∉ s.blocks :=
    owned.waiting c known
  refine lost_iff grows (fun a waits => lt_of_lt_of_le (old a waits).1 grows) (fun a => ?_) a
  unfold State.Placed
  rw [blocks]
  constructor
  · rintro (inside | ⟨d, exists', waits⟩)
    · exact ⟨fun waits => (old a waits).2 inside, .inl (.inl inside)⟩
    · by_cases same : d = c
      · have new := (fresh a).mp (same ▸ waits)
        exact ⟨fun waits => absurd (old a waits).1 (not_lt.mpr new.1), .inr new⟩
      · rw [other d same] at waits
        have inside : d < s.srv.nconn := nconn ▸ exists'
        exact ⟨fun waits' => same (owned.apart d c inside known a waits waits'),
          .inl (.inr ⟨d, inside, waits⟩)⟩
  · rintro ⟨kept, (inside | ⟨d, inside, waits⟩) | new⟩
    · exact .inl inside
    · have distinct : d ≠ c := by
        rintro rfl
        exact kept waits
      exact .inr ⟨d, nconn ▸ inside, (other d distinct).trans waits⟩
    · exact .inr ⟨c, nconn ▸ known, (fresh a).mpr new⟩

/-- `ServerSend` loses what waits in the slot it fills, and nothing else. -/
theorem lost_send {c : ConnPtr} {data : Option Memory} {len : Int} {granted : Bool}
    (stepped : EpollNet.step s (.send c data len granted) = some s') (small : len < 2 ^ 31)
    (owned : Owned s) (a : Nat) :
    s'.Lost a ↔ s.Lost a ∨ s.Loses (.send c data len granted) a := by
  simp only [EpollNet.step] at stepped
  split at stepped
  · rename_i known
    obtain rfl := Option.some.inj stepped
    by_cases goes : len > 0 ∧ (s.srv.conns c).activity = .connected
    · have loses : s.Loses (.send c data len granted) a ↔ s.srv.waiting c = some a :=
        ⟨fun lost => lost.2.2.2, fun waits => ⟨known, goes.1, goes.2, waits⟩⟩
      obtain ⟨sent, called⟩ := serverSend_connected data granted goes
      rw [loses, called]
      rcases cStrMalloc_cases s.srv.heap granted data goes.1 (by omega) with
        refused | ⟨b, made, addr⟩
      · rw [refused]
        exact lost_store owned known (by rfl) (by rfl) (by rfl) (by rfl)
          (.inl ⟨by rfl, by rfl⟩) a
      · rw [made]
        exact lost_store owned known (by rfl) (by rfl) (by rfl) (by rfl)
          (.inr ⟨b, by rfl, addr, by rfl⟩) a
    · have idle : s.srv.serverSend c data len granted = s.srv := by
        simp only [Server.serverSend, Server.serverSendStore, if_neg goes]
      have kept : ¬s.Loses (.send c data len granted) a := fun lost => goes ⟨lost.2.1, lost.2.2.1⟩
      rw [idle]
      exact (or_iff_left kept).symm
  · contradiction

/-! ## Runs -/

/-- A step loses what it loses, and what was lost stays lost. -/
theorem lost_step (known : Known s) (owned : Owned s) (allowed : IntLengths s l)
    (stepped : EpollNet.step s l = some s') (a : Nat) : s'.Lost a ↔ s.Lost a ∨ s.Loses l a := by
  have cases' := step_cases stepped
  have spared : LosesNone s s' → ¬s.Loses l a → (s'.Lost a ↔ s.Lost a ∨ s.Loses l a) :=
    fun none kept => (none a).trans (or_iff_left kept).symm
  cases l with
  | read input => exact lost_read stepped owned a
  | send c data len granted => exact lost_send stepped allowed owned a
  | write script => exact spared (losesNone_write cases' known) id
  | _ => exact spared (losesNone_quiet cases' known nofun nofun nofun) id

/-- The addresses a step loses. -/
def State.leaks (s : State) : Label → List Nat
  | .send c _ len _ =>
    if c < s.srv.nconn ∧ 0 < len ∧ (s.srv.conns c).activity = .connected then
      (s.srv.waiting c).toList
    else []
  | .read input =>
    match s.reactor with
    | .read fr c =>
      match s.srv.recvlen c input with
      | some recvlen =>
        if hasAny eventReadBits fr.events = true ∧ 0 < recvlen ∧ input.strGranted = true ∧
            input.itemGranted = false then
          [s.srv.heap.next]
        else []
      | none => []
    | _ => []
  | _ => []

/-- The buffers that wait in slots. -/
def Server.slots (s : Server) : List Nat := (List.range s.nconn).filterMap s.waiting

/-- The addresses listed are those that the step loses. -/
theorem mem_leaks : a ∈ s.leaks l ↔ s.Loses l a := by
  cases l with
  | send c data len granted =>
    by_cases goes : c < s.srv.nconn ∧ 0 < len ∧ (s.srv.conns c).activity = .connected
    · simp [State.leaks, State.Loses, goes]
    · simp only [State.leaks, if_neg goes, State.Loses, List.not_mem_nil, false_iff]
      exact fun lost => goes ⟨lost.1, lost.2.1, lost.2.2.1⟩
  | read input =>
    constructor
    · intro member
      cases at_pc : s.reactor with
      | read fr c =>
        rw [State.leaks, at_pc] at member
        cases read : s.srv.recvlen c input with
        | none => simp [read] at member
        | some recvlen =>
          simp only [read] at member
          split at member
          · rename_i goes
            have here := List.mem_singleton.mp member
            exact ⟨goes.2.2.1, goes.2.2.2, here, fr, c, recvlen, at_pc, goes.1, read, goes.2.1⟩
          · exact absurd member List.not_mem_nil
      | _ => simp [State.leaks, at_pc] at member
    · rintro ⟨str, item, here, fr, c, recvlen, at_pc, events, read, some'⟩
      simp [State.leaks, at_pc, read, events, some', str, item, here]
  | _ => exact iff_of_false List.not_mem_nil id

/-- A step loses one address at most. -/
theorem nodup_leaks (s : State) (l : Label) : (s.leaks l).Nodup := by
  have short : (s.leaks l).length ≤ 1 := by
    unfold State.leaks
    split
    · split
      · cases s.srv.waiting _ <;> simp
      · exact Nat.zero_le _
    · split
      · split
        · split <;> simp
        · exact Nat.zero_le _
      · exact Nat.zero_le _
    · exact Nat.zero_le _
  match leaks : s.leaks l with
  | [] => exact List.nodup_nil
  | [a] => exact List.nodup_singleton a
  | a :: b :: more =>
    rw [leaks] at short
    simp at short

/-- The addresses listed are those that wait in a slot. -/
theorem mem_slots {srv : Server} : a ∈ srv.slots ↔ srv.Pends a := by
  simp [Server.slots, Server.Pends]

/-- No buffer waits in two slots. -/
theorem Owned.nodup_slots (owned : Owned s) : s.srv.slots.Nodup := by
  rw [Server.slots, List.Nodup, List.pairwise_filterMap]
  have ordered := @List.pairwise_lt_range s.srv.nconn
  refine ordered.imp_of_mem fun first second less a waits b waits' same => ?_
  subst same
  have equal := owned.apart _ _ (List.mem_range.mp first) (List.mem_range.mp second) a waits waits'
  exact absurd equal (Nat.ne_of_lt less)

/-- What is lost is not lost again. -/
theorem lost_once (loses : s.Loses l a) : ¬s.Lost a := by
  rintro ⟨below, placed⟩
  cases l with
  | send c data len granted => exact placed (.inr ⟨c, loses.1, loses.2.2.2⟩)
  | read input =>
    have here : a = s.srv.heap.next := loses.2.2.1
    omega
  | _ => exact loses

/-- The blocks lost so far. -/
def Leaked (s : State) (lost : List Nat) : Prop := lost.Nodup ∧ ∀ a, a ∈ lost ↔ s.Lost a

/-- A step adds what it loses. -/
theorem Leaked.step {lost : List Nat} (leaked : Leaked s lost) (known : Known s) (owned : Owned s)
    (allowed : IntLengths s l) (stepped : EpollNet.step s l = some s') :
    Leaked s' (lost ++ s.leaks l) := by
  constructor
  · apply leaked.1.append (nodup_leaks s l)
    intro a before now
    exact lost_once (mem_leaks.mp now) ((leaked.2 a).mp before)
  · intro a
    rw [List.mem_append, leaked.2, mem_leaks]
    exact (lost_step known owned allowed stepped a).symm

/-- What was allocated is in one of the places or lost, and nothing is in two of them. -/
theorem Leaked.conserves {lost : List Nat} (leaked : Leaked s lost) (owned : Owned s) :
    (s.blocks ++ s.srv.slots ++ lost).Perm (List.range s.srv.heap.next) := by
  have apart : s.blocks.Disjoint s.srv.slots := by
    intro a inside waits
    obtain ⟨c, known, pends⟩ := mem_slots.mp waits
    exact (owned.waiting c known a pends).2 inside
  have placed : ∀ a, a ∈ s.blocks ++ s.srv.slots ↔ s.Placed a := by
    intro a
    rw [List.mem_append, mem_slots]
    rfl
  have distinct : (s.blocks ++ s.srv.slots ++ lost).Nodup := by
    apply (owned.nodup.append owned.nodup_slots apart).append leaked.1
    intro a member gone
    exact ((leaked.2 a).mp gone).2 ((placed a).mp member)
  refine (List.perm_ext_iff_of_nodup distinct List.nodup_range).mpr fun a => ?_
  rw [List.mem_append, placed, leaked.2, List.mem_range]
  constructor
  · rintro ((inside | ⟨c, known, waits⟩) | gone)
    · exact owned.below a inside
    · exact (owned.waiting c known a waits).1
    · exact gone.1
  · intro below
    by_cases known : s.Placed a
    · exact .inl known
    · exact .inr ⟨below, known⟩

/-- The steps of a path have lost what is lost at its end. -/
theorem leaked_of_path {s₀ : State} {labels : List Label} (started : Started s₀)
    (path : Path EpollNet.step IntLengths s₀ labels s) :
    Owned s ∧ Leaked s (collect EpollNet.step State.leaks s₀ labels) := by
  have kept : ∀ s l s', Known s ∧ Owned s → IntLengths s l → EpollNet.step s l = some s' →
      Known s' ∧ Owned s' := fun s l s' inv _ stepped =>
    ⟨inv.1.step (step_cases stepped), inv.2.step inv.1 (step_cases stepped)⟩
  have here : Known s₀ ∧ Owned s₀ := ⟨started.known, started.blank.owned⟩
  have begun : Leaked s₀ [] := by
    refine ⟨List.nodup_nil, fun a => iff_of_false List.not_mem_nil fun lost => ?_⟩
    have below := lost.1
    rw [started.blank.heap] at below
    exact absurd below (Nat.not_lt_zero a)
  have leaked := path.collects _ Leaked kept
    (fun s l s' lost inv leaked allowed stepped => leaked.step inv.1 inv.2 allowed stepped) here
    begun
  rw [List.nil_append] at leaked
  exact ⟨(path.keeps _ kept here).2, leaked⟩

/-- In every run with `int` lengths each block that `malloc` gave is in exactly one place: it is
with an item, it was freed, it waits in a slot, or one step of the run lost it. -/
theorem memory_conserved {s₀ : State} {labels : List Label} (started : Started s₀)
    (path : Path EpollNet.step IntLengths s₀ labels s) :
    (s.blocks ++ s.srv.slots ++ collect EpollNet.step State.leaks s₀ labels).Perm
      (List.range s.srv.heap.next) := by
  obtain ⟨owned, leaked⟩ := leaked_of_path started path
  exact leaked.conserves owned

/-- A payload put on top of another one loses it. -/
theorem memory_conserved_overwritten : ∃ labels s,
    Path EpollNet.step IntLengths Sample.start labels s ∧
      (s.blocks ++ s.srv.slots ++ collect EpollNet.step State.leaks Sample.start labels).Perm
        (List.range s.srv.heap.next) ∧
      s.srv.slots = [1] ∧ collect EpollNet.step State.leaks Sample.start labels = [0] := by
  let labels := Sample.connecting 4 ++ [.send 1 (some fun _ => 65) 3 true,
    .send 1 (some fun _ => 66) 2 true]
  have completed : (runAllowed EpollNet.step IntLengths Sample.start labels).map
      (fun s => decide (s.srv.slots = [1])) = some true ∧
        collect EpollNet.step State.leaks Sample.start labels = [0] := by
    decide +kernel
  obtain ⟨ran, lost⟩ := completed
  obtain ⟨s, ran, passed⟩ := Option.map_eq_some_iff.mp ran
  have path := Path.of_runAllowed ran
  exact ⟨labels, s, path, memory_conserved Sample.started path, of_decide_eq_true passed, lost⟩

end EpollNet
