import EpollNet.Verif.Items

/-!
# Custody of items and buffers

`Logged` ties the history to the queue: what was pushed is what was popped followed by what is
queued, so the queue is first in, first out, and every item popped was handed over or is about
to be. `Owned` says that no address is in two places at once: with an item, with a connection
object, or freed. Both hold in every run, whatever senders and descriptor numbers do.
-/

namespace EpollNet

open EpollNet.Basis

variable {s s' : State}

/-! ## The log -/

/-- The history accounts for the queue. -/
structure Logged (s : State) : Prop where
  /-- Items are pushed in the order they were read. -/
  read : chunks s.history = pushed s.history ++ s.reactor.pushing
  /-- Items leave the queue in the order they entered it. -/
  fifo : pushed s.history = popped s.history ++ s.srv.rqueue
  /-- Items popped were handed over, or a worker is about to. -/
  passed : (popped s.history).Perm (handed s.history ++ s.workers.filterMap Worker.handing)
  /-- Items are pushed in the order they were allocated. -/
  ascending : ((pushed s.history ++ s.reactor.pushing).map Item.addr).Pairwise (· < ·)
  /-- They were allocated. -/
  below : ∀ item ∈ pushed s.history ++ s.reactor.pushing, item.addr < s.srv.heap.next

/-- A step that touches neither the queue nor a worker and pushes nothing. -/
theorem Logged.reactor {srv : Server} {pc : Pc} (logged : Logged s)
    (before : s.reactor.pushing = []) (after : pc.pushing = []) (rqueue : srv.rqueue = s.srv.rqueue)
    (next : s.srv.heap.next ≤ srv.heap.next) : Logged { s with srv, reactor := pc } := by
  obtain ⟨read, fifo, passed, ascending, below⟩ := logged
  rw [before] at read ascending below
  refine ⟨by rw [after]; exact read, by rw [rqueue]; exact fifo, passed, ?_, ?_⟩
  · rw [after]
    exact ascending
  · intro item member
    rw [after] at member
    exact lt_of_lt_of_le (below item member) next

/-- A step that leaves the reactor where it is. -/
theorem Logged.congr {srv : Server} (logged : Logged s) (rqueue : srv.rqueue = s.srv.rqueue)
    (next : s.srv.heap.next ≤ srv.heap.next) : Logged { s with srv } :=
  ⟨logged.read, by rw [rqueue]; exact logged.fifo, logged.passed, logged.ascending,
    fun item member => lt_of_lt_of_le (logged.below item member) next⟩

/-- A worker that moves within its loop, with the items it hands over accounted for. -/
theorem Logged.turn {w : Nat} {old new : Worker} (logged : Logged s)
    (found : s.workers[w]? = some old) (workers : s'.workers = s.workers.set w new)
    (reactor : s'.reactor = s.reactor) (rqueue : s'.srv.rqueue = s.srv.rqueue)
    (next : s'.srv.heap.next = s.srv.heap.next) (reads : chunks s'.history = chunks s.history)
    (pushes : pushed s'.history = pushed s.history)
    (pops : popped s'.history = popped s.history)
    (hands : ∀ rest, (handed s.history ++ (old.handing.toList ++ rest)).Perm
      (handed s'.history ++ (new.handing.toList ++ rest))) : Logged s' := by
  obtain ⟨rest, before, after⟩ := Crew.filterMap_set found new Worker.handing
  refine ⟨by rw [reads, pushes, reactor]; exact logged.read,
    by rw [pushes, pops, rqueue]; exact logged.fifo, ?_, ?_, ?_⟩
  · rw [pops, workers]
    exact logged.passed.trans
      ((before.append_left _).trans ((hands rest).trans (after.symm.append_left _)))
  · rw [pushes, reactor]
    exact logged.ascending
  · rw [pushes, reactor, next]
    exact logged.below

/-- A worker's step keeps the log. -/
theorem Logged.worker {w : Nat} (logged : Logged s) (moved : WorkerStep s w s') : Logged s' := by
  have next := (blocks_worker moved).2
  cases moved with
  | taken at_wait _ => exact logged.turn at_wait rfl rfl rfl next rfl rfl rfl fun _ => .refl _
  | sized at_size _ => exact logged.turn at_size rfl rfl rfl next rfl rfl rfl fun _ => .refl _
  | sizedEmpty at_size _ => exact logged.turn at_size rfl rfl rfl next rfl rfl rfl fun _ => .refl _
  | poppedEmpty at_pop _ => exact logged.turn at_pop rfl rfl rfl next rfl rfl rfl fun _ => .refl _
  | @popped item rest at_pop queue =>
    obtain ⟨read, fifo, passed, ascending, below⟩ := logged
    refine ⟨read, ?_, ?_, ascending, below⟩
    · show pushed s.history = popped s.history ++ [item] ++ rest
      rw [fifo, queue, List.append_assoc]
      rfl
    · have taken : ((s.workers.set w (.call item)).filterMap Worker.handing).Perm
          (item :: s.workers.filterMap Worker.handing) :=
        Crew.filterMap_set_take at_pop Worker.handing rfl rfl
      show (popped s.history ++ [item]).Perm
        (handed s.history ++ (s.workers.set w (.call item)).filterMap Worker.handing)
      calc popped s.history ++ [item]
        _ |>.Perm (item :: popped s.history) := List.perm_append_singleton _ _
        _ |>.Perm (item :: (handed s.history ++ s.workers.filterMap Worker.handing)) :=
          passed.cons item
        _ |>.Perm (handed s.history ++ item :: s.workers.filterMap Worker.handing) :=
          List.perm_middle.symm
        _ |>.Perm (handed s.history ++ (s.workers.set w (.call item)).filterMap Worker.handing) :=
          taken.symm.append_left _
  | @called item at_call =>
    refine logged.turn at_call rfl rfl rfl next rfl rfl rfl fun rest => ?_
    show (handed s.history ++ ([item] ++ rest)).Perm (handed s.history ++ [item] ++ ([] ++ rest))
    rw [List.append_assoc, List.nil_append]
  | returned at_running =>
    exact logged.turn at_running rfl rfl rfl next rfl rfl rfl fun _ => .refl _
  | freed at_free => exact logged.turn at_free rfl rfl rfl next rfl rfl rfl fun _ => .refl _

/-- Every step keeps the log. -/
theorem Logged.step {l : Label} (logged : Logged s) (stepped : Step s l s') : Logged s' := by
  cases stepped with
  | waited at_blocked _ =>
    refine logged.reactor (by rw [at_blocked]; rfl) ?_ rfl (le_refl _)
    unfold Pc.begin
    split <;> rfl
  | tested at_test =>
    exact logged.reactor (by rw [at_test]; rfl) (pushing_dispatch _ _) rfl (le_refl _)
  | acceptLooping at_accept =>
    exact logged.reactor (by rw [at_accept]; rfl) rfl rfl (le_refl _)
  | acceptNone at_accept =>
    exact logged.reactor (by rw [at_accept]; rfl) (pushing_resume _) rfl (le_refl _)
  | @acceptDropped fr input inc at_accept _ _ =>
    obtain ⟨kernel, _, dropped⟩ := s.srv.dropped_frame inc
    rw [dropped]
    exact logged.reactor (by rw [at_accept]; rfl) (pushing_resume _) rfl (le_refl _)
  | @acceptRefused fr input inc c rest nconn at_accept _ _ _ _ =>
    obtain ⟨kernel, obj, _, _, refused⟩ := s.srv.refused_frame inc c rest nconn
    rw [refused]
    exact logged.reactor (by rw [at_accept]; rfl) (pushing_resume _) rfl (le_refl _)
  | acceptAdmitted at_accept _ _ _ =>
    exact logged.reactor (by rw [at_accept]; rfl) rfl rfl (le_refl _)
  | sockoptFailed at_sockopt _ =>
    exact logged.reactor (by rw [at_sockopt]; rfl) (pushing_resume _) rfl (le_refl _)
  | sockoptConnected at_sockopt _ =>
    exact logged.reactor (by rw [at_sockopt]; rfl) rfl rfl (le_refl _)
  | sockoptSevered at_sockopt _ _ =>
    exact logged.reactor (by rw [at_sockopt]; rfl) rfl rfl (le_refl _)
  | readSkipped at_read _ =>
    exact logged.reactor (by rw [at_read]; rfl) rfl rfl (le_refl _)
  | readLooping at_read _ _ =>
    exact logged.reactor (by rw [at_read]; rfl) rfl rfl (le_refl _)
  | @readEnded fr c input at_read _ _ =>
    obtain ⟨kernel, obj, _, _, ended⟩ := (s.srv.received c input).hangUp_frame c
    rw [ended]
    exact logged.reactor (by rw [at_read]; rfl) rfl rfl (le_refl _)
  | readFinished at_read _ _ _ grown =>
    exact logged.reactor (by rw [at_read]; rfl) rfl rfl grown.le
  | @readItem fr c input recvlen item made at_read _ _ _ _ _ grown addr =>
    obtain ⟨read, fifo, passed, ascending, below⟩ := logged
    rw [at_read] at read ascending below
    simp only [Pc.pushing, List.append_nil] at read ascending below
    refine ⟨?_, fifo, passed, ?_, ?_⟩
    · show chunks s.history ++ [item] = pushed s.history ++ [item]
      rw [read]
    · show ((pushed s.history ++ [item]).map Item.addr).Pairwise (· < ·)
      rw [List.map_append]
      refine List.pairwise_append.mpr ⟨ascending, List.pairwise_singleton _ _, ?_⟩
      intro a before b last
      obtain ⟨old, member, rfl⟩ := List.mem_map.mp before
      obtain rfl := List.mem_singleton.mp last
      exact addr ▸ lt_of_lt_of_le (below old member) grown.le
    · intro other member
      show other.addr < made.next + 1
      rcases List.mem_append.mp member with old | own
      · exact lt_of_lt_of_le (below other old) (le_trans grown.le (Nat.le_succ _))
      · rw [List.mem_singleton.mp own, addr]
        exact Nat.lt_succ_self _
  | @pushed fr c item at_push =>
    obtain ⟨read, fifo, passed, ascending, below⟩ := logged
    rw [at_push] at read ascending below
    refine ⟨?_, ?_, passed, ?_, ?_⟩
    · show chunks s.history = pushed s.history ++ [item] ++ []
      rw [List.append_nil]
      exact read
    · show pushed s.history ++ [item] = popped s.history ++ (s.srv.rqueue ++ [item])
      rw [fifo, List.append_assoc]
    · show ((pushed s.history ++ [item] ++ []).map Item.addr).Pairwise (· < ·)
      rw [List.append_nil]
      exact ascending
    · intro other member
      exact below other (by simpa [pushed, Pc.pushing] using member)
  | posted at_post =>
    exact logged.reactor (by rw [at_post]; rfl) rfl rfl (le_refl _)
  | writeIdle at_write =>
    exact logged.reactor (by rw [at_write]; rfl) (pushing_resume _) rfl (le_refl _)
  | writeLooping at_write _ _ _ =>
    exact logged.reactor (by rw [at_write]; rfl) rfl rfl (le_refl _)
  | written at_write _ _ _ _ _ stored =>
    refine logged.reactor (by rw [at_write]; rfl) (pushing_resume _) rfl ?_
    rcases stored with ⟨rfl, _⟩ | ⟨rfl, _⟩
    · exact le_refl _
    · exact le_refl _
  | arrived => exact logged.congr rfl (le_refl _)
  | sendIdle => exact logged
  | sent _ _ _ _ _ grown => exact logged.congr rfl grown.le
  | worker moved => exact logged.worker moved
  | interrupted at_wait =>
    exact logged.turn at_wait rfl rfl rfl rfl rfl rfl rfl fun _ => .refl _

/-! ## Addresses -/

/-- The address of the buffer an object waits to send. -/
def Server.waiting (s : Server) (c : ConnPtr) : Option Nat := (s.conns c).sendptr.map Buf.addr

/-- Every allocated address is in one place. -/
structure Owned (s : State) : Prop where
  /-- Items, their buffers and freed addresses are distinct. -/
  nodup : s.blocks.Nodup
  /-- They were allocated. -/
  below : ∀ a ∈ s.blocks, a < s.srv.heap.next
  /-- The buffers waiting in created objects were allocated and are neither. -/
  waiting : ∀ c, c < s.srv.nconn → ∀ a, s.srv.waiting c = some a →
    a < s.srv.heap.next ∧ a ∉ s.blocks
  /-- No two created objects wait to send the same buffer. -/
  apart : ∀ c d, c < s.srv.nconn → d < s.srv.nconn → ∀ a, s.srv.waiting c = some a →
    s.srv.waiting d = some a → c = d

/-- The addresses stay when no item moves and nothing is freed. -/
theorem blocks_congr (pushing : s'.reactor.pushing = s.reactor.pushing)
    (rqueue : s'.srv.rqueue = s.srv.rqueue) (workers : s'.workers = s.workers)
    (freed : s'.srv.heap.freed = s.srv.heap.freed) : s'.blocks = s.blocks := by
  rw [State.blocks, items_congr pushing rqueue workers, freed]
  rfl

/-- New addresses are added, and no created object waits for a buffer it did not wait for. -/
theorem Owned.grow {made : List Nat} (owned : Owned s) (perm : s'.blocks.Perm (made ++ s.blocks))
    (nodup : made.Nodup) (fresh : ∀ a ∈ made, s.srv.heap.next ≤ a ∧ a < s'.srv.heap.next)
    (next : s.srv.heap.next ≤ s'.srv.heap.next)
    (waiting : ∀ c, c < s'.srv.nconn → ∀ a, s'.srv.waiting c = some a →
      c < s.srv.nconn ∧ s.srv.waiting c = some a) : Owned s' := by
  have unmade : ∀ a, a < s.srv.heap.next → a ∉ made := fun a old member =>
    absurd (fresh a member).1 (not_le_of_gt old)
  constructor
  · refine perm.nodup_iff.mpr (List.nodup_append.mpr ⟨nodup, owned.nodup, ?_⟩)
    intro a first b second same
    exact unmade b (owned.below b second) (same ▸ first)
  · intro a member
    rcases List.mem_append.mp (perm.mem_iff.mp member) with new | old
    · exact (fresh a new).2
    · exact lt_of_lt_of_le (owned.below a old) next
  · intro c known a waits
    obtain ⟨before, same⟩ := waiting c known a waits
    obtain ⟨below, outside⟩ := owned.waiting c before a same
    refine ⟨lt_of_lt_of_le below next, fun member => ?_⟩
    rcases List.mem_append.mp (perm.mem_iff.mp member) with new | old
    · exact unmade a below new
    · exact outside old
  · intro c d first second a left right
    obtain ⟨before, same⟩ := waiting c first a left
    obtain ⟨before', same'⟩ := waiting d second a right
    exact owned.apart c d before before' a same same'

/-- No address is added. -/
theorem Owned.congr (owned : Owned s) (perm : s'.blocks.Perm s.blocks)
    (next : s.srv.heap.next ≤ s'.srv.heap.next)
    (waiting : ∀ c, c < s'.srv.nconn → ∀ a, s'.srv.waiting c = some a →
      c < s.srv.nconn ∧ s.srv.waiting c = some a) : Owned s' :=
  owned.grow perm List.nodup_nil (fun _ member => nomatch member) next waiting

/-- A step of the reactor that frees nothing and moves no item. -/
theorem Owned.reactor {srv : Server} {pc : Pc} (owned : Owned s) (before : s.reactor.pushing = [])
    (after : pc.pushing = []) (rqueue : srv.rqueue = s.srv.rqueue)
    (freed : srv.heap.freed = s.srv.heap.freed) (next : s.srv.heap.next ≤ srv.heap.next)
    (waiting : ∀ c, c < srv.nconn → ∀ a, srv.waiting c = some a →
      c < s.srv.nconn ∧ s.srv.waiting c = some a) : Owned { s with srv, reactor := pc } := by
  refine owned.congr (.of_eq ?_) next waiting
  exact blocks_congr (after.trans before.symm) rqueue rfl freed

/-- Objects replaced by ones waiting for the same buffer or for none. -/
theorem waiting_update {s : Server} {srv : Server} {c : ConnPtr} {obj : ConnObj}
    (conns : srv.conns = Function.update s.conns c obj)
    (kept : obj.sendptr = (s.conns c).sendptr ∨ obj.sendptr = none) {d : ConnPtr} {a : Nat}
    (waits : srv.waiting d = some a) : s.waiting d = some a := by
  unfold Server.waiting at waits ⊢
  rw [conns] at waits
  by_cases same : d = c
  · subst same
    rw [Function.update_self] at waits
    rcases kept with kept | none
    · rwa [kept] at waits
    · simp [none] at waits
  · rwa [Function.update_of_ne same] at waits

/-- The object an accept takes waits for the buffer it waited for in the pool, or for none. -/
theorem waiting_taken {s srv : Server} {c nconn : ConnPtr} {rest : List ConnPtr} {obj : ConnObj}
    (existing : s.Existing) (next : s.roster.Next c rest nconn) (size : srv.nconn = nconn)
    (conns : srv.conns = Function.update s.conns c obj)
    (taken : obj.sendptr = (s.takenConn c).sendptr) (d : ConnPtr) (known : d < srv.nconn) (a : Nat)
    (waits : srv.waiting d = some a) : d < s.nconn ∧ s.waiting d = some a := by
  unfold Server.waiting at waits ⊢
  rw [conns] at waits
  by_cases same : d = c
  · subst same
    rw [Function.update_self, taken, Server.takenConn] at waits
    by_cases empty : s.pool = []
    · rw [if_pos empty] at waits
      simp [connobjReset, createNewConnObj] at waits
    · rw [if_neg empty] at waits
      cases next with
      | pooled queue =>
        rw [Server.roster_pool] at queue
        exact ⟨existing.pooled d (queue ▸ List.mem_cons_self), waits⟩
      | fresh queue => exact absurd queue empty
  · rw [Function.update_of_ne same] at waits
    exact ⟨next.lt_of_ne (size ▸ known) same, waits⟩

/-- An object replaced by one that waits for a new buffer. -/
theorem Owned.store {srv : Server} {c : ConnPtr} {obj : ConnObj} (owned : Owned s)
    (rqueue : srv.rqueue = s.srv.rqueue) (nconn : srv.nconn = s.srv.nconn)
    (conns : srv.conns = Function.update s.srv.conns c obj)
    (grown : s.srv.heap.Grown srv.heap obj.sendptr) : Owned { s with srv } := by
  have blocks : ({ s with srv } : State).blocks = s.blocks :=
    blocks_congr rfl rqueue rfl grown.freed
  have own : ∀ a, srv.waiting c = some a → s.srv.heap.next ≤ a ∧ a < srv.heap.next := by
    intro a waits
    simp only [Server.waiting, conns, Function.update_self, Option.map_eq_some_iff] at waits
    obtain ⟨b, stored, rfl⟩ := waits
    exact grown.fresh b stored
  have other : ∀ d, d ≠ c → srv.waiting d = s.srv.waiting d := by
    intro d distinct
    rw [Server.waiting, conns, Function.update_of_ne distinct]
    rfl
  have old : ∀ d, d < srv.nconn → d ≠ c → ∀ a, srv.waiting d = some a →
      a < s.srv.heap.next ∧ a ∉ s.blocks := by
    intro d known distinct a waits
    rw [other d distinct] at waits
    exact owned.waiting d (nconn ▸ known) a waits
  constructor
  · rw [blocks]
    exact owned.nodup
  · intro a member
    rw [blocks] at member
    exact lt_of_lt_of_le (owned.below a member) grown.le
  · intro d known a waits
    rw [blocks]
    by_cases same : d = c
    · subst same
      exact ⟨(own a waits).2, fun member => absurd (own a waits).1
        (not_le_of_gt (owned.below a member))⟩
    · obtain ⟨below, outside⟩ := old d known same a waits
      exact ⟨lt_of_lt_of_le below grown.le, outside⟩
  · intro d e first second a left right
    by_cases same : d = c
    · by_cases same' : e = c
      · rw [same, same']
      · have new := (own a (same ▸ left)).1
        exact absurd new (not_le_of_gt (old e second same' a right).1)
    · by_cases same' : e = c
      · have new := (own a (same' ▸ right)).1
        exact absurd new (not_le_of_gt (old d first same a left).1)
      · rw [other d same] at left
        rw [other e same'] at right
        exact owned.apart d e (nconn ▸ first) (nconn ▸ second) a left right

/-- The buffer a created object waits to send is freed. -/
theorem Owned.unload {srv : Server} {pc : Pc} {c : ConnPtr} {b : Buf} {obj : ConnObj}
    (owned : Owned s) (known : c < s.srv.nconn) (stored : (s.srv.conns c).sendptr = some b)
    (before : s.reactor.pushing = []) (after : pc.pushing = [])
    (rqueue : srv.rqueue = s.srv.rqueue) (nconn : srv.nconn = s.srv.nconn)
    (heap : srv.heap = s.srv.heap.free b.addr)
    (conns : srv.conns = Function.update s.srv.conns c obj) (empty : obj.sendptr = none) :
    Owned { s with srv, reactor := pc } := by
  have waits : s.srv.waiting c = some b.addr := by rw [Server.waiting, stored]; rfl
  obtain ⟨below, outside⟩ := owned.waiting c known b.addr waits
  have items : ({ s with srv, reactor := pc } : State).items = s.items :=
    items_congr (after.trans before.symm) rqueue rfl
  have blocks : ({ s with srv, reactor := pc } : State).blocks.Perm (b.addr :: s.blocks) := by
    rw [State.blocks, items]
    dsimp only
    rw [heap]
    exact List.perm_middle
  have next : srv.heap.next = s.srv.heap.next := by rw [heap]; rfl
  have kept : ∀ d a, srv.waiting d = some a → d ≠ c ∧ s.srv.waiting d = some a := by
    intro d a still
    refine ⟨?_, waiting_update conns (.inr empty) still⟩
    rintro rfl
    simp [Server.waiting, conns, empty] at still
  constructor
  · exact blocks.nodup_iff.mpr (List.nodup_cons.mpr ⟨outside, owned.nodup⟩)
  · intro a member
    rw [next]
    rcases List.mem_cons.mp (blocks.mem_iff.mp member) with rfl | old
    · exact below
    · exact owned.below a old
  · intro d exists' a still
    obtain ⟨distinct, same⟩ := kept d a still
    have inside : d < s.srv.nconn := nconn ▸ exists'
    obtain ⟨less, apart⟩ := owned.waiting d inside a same
    refine ⟨next ▸ less, fun member => ?_⟩
    rcases List.mem_cons.mp (blocks.mem_iff.mp member) with rfl | old
    · exact distinct (owned.apart d c inside known _ same waits)
    · exact apart old
  · intro d e first second a left right
    exact owned.apart d e (nconn ▸ first) (nconn ▸ second) a (kept d a left).2 (kept e a right).2

/-- The blocks of an item that was just made are new and distinct. -/
theorem blocks_made {h made : Heap} {item : Item} (grown : h.Grown made item.recvptr)
    (addr : item.addr = made.next) :
    item.blocks.Nodup ∧ ∀ a ∈ item.blocks, h.next ≤ a ∧ a < made.next + 1 := by
  have low : h.next ≤ item.addr := addr ▸ grown.le
  have high : item.addr < made.next + 1 := by omega
  unfold Item.blocks
  cases buffer : item.recvptr with
  | none =>
    refine ⟨List.nodup_singleton _, fun a member => ?_⟩
    rw [List.mem_singleton.mp member]
    exact ⟨low, high⟩
  | some b =>
    obtain ⟨least, below⟩ := grown.fresh b buffer
    refine ⟨?_, fun a member => ?_⟩
    · show [item.addr, b.addr].Nodup
      rw [addr]
      simpa using ne_of_gt below
    · have either : a = item.addr ∨ a = b.addr := by
        simpa using member
      rcases either with rfl | rfl
      · exact ⟨low, high⟩
      · exact ⟨least, lt_trans below (Nat.lt_succ_self _)⟩

/-- Every step keeps each address in one place. -/
theorem Owned.step {l : Label} (owned : Owned s) (known : Known s) (stepped : Step s l s') :
    Owned s' := by
  have within := known.within
  have same : ∀ c, c < s.srv.nconn → ∀ a, s.srv.waiting c = some a →
      c < s.srv.nconn ∧ s.srv.waiting c = some a := fun _ exists' _ waits => ⟨exists', waits⟩
  cases stepped with
  | waited at_blocked _ =>
    refine owned.reactor (by rw [at_blocked]; rfl) ?_ rfl rfl (le_refl _) same
    unfold Pc.begin
    split <;> rfl
  | tested at_test =>
    exact owned.reactor (by rw [at_test]; rfl) (pushing_dispatch _ _) rfl rfl (le_refl _) same
  | acceptLooping at_accept =>
    exact owned.reactor (by rw [at_accept]; rfl) rfl rfl rfl (le_refl _) same
  | acceptNone at_accept =>
    exact owned.reactor (by rw [at_accept]; rfl) (pushing_resume _) rfl rfl (le_refl _) same
  | @acceptDropped fr input inc at_accept _ _ =>
    obtain ⟨kernel, _, dropped⟩ := s.srv.dropped_frame inc
    rw [dropped]
    exact owned.reactor (by rw [at_accept]; rfl) (pushing_resume _) rfl rfl (le_refl _) same
  | @acceptRefused fr input inc c rest nconn at_accept _ _ next _ =>
    obtain ⟨kernel, obj, taken, _, refused⟩ := s.srv.refused_frame inc c rest nconn
    rw [refused]
    refine owned.reactor (by rw [at_accept]; rfl) (pushing_resume _) rfl rfl (le_refl _) ?_
    exact waiting_taken known.existing next rfl rfl taken
  | acceptAdmitted at_accept _ _ next =>
    refine owned.reactor (by rw [at_accept]; rfl) rfl rfl rfl (le_refl _) ?_
    exact waiting_taken known.existing next rfl rfl rfl
  | sockoptFailed at_sockopt _ =>
    exact owned.reactor (by rw [at_sockopt]; rfl) (pushing_resume _) rfl rfl (le_refl _) same
  | sockoptConnected at_sockopt _ =>
    refine owned.reactor (by rw [at_sockopt]; rfl) rfl rfl rfl (le_refl _)
      fun d exists' a waits => ?_
    exact ⟨exists', waiting_update rfl (.inl (by rfl)) waits⟩
  | sockoptSevered at_sockopt _ _ =>
    refine owned.reactor (by rw [at_sockopt]; rfl) rfl rfl rfl (le_refl _)
      fun d exists' a waits => ?_
    exact ⟨exists', waiting_update rfl (.inl (by rfl)) waits⟩
  | readSkipped at_read _ =>
    exact owned.reactor (by rw [at_read]; rfl) rfl rfl rfl (le_refl _) same
  | readLooping at_read _ _ =>
    exact owned.reactor (by rw [at_read]; rfl) rfl rfl rfl (le_refl _) same
  | @readEnded fr c input at_read _ _ =>
    obtain ⟨kernel, obj, kept, _, ended⟩ := (s.srv.received c input).hangUp_frame c
    rw [ended]
    refine owned.reactor (by rw [at_read]; rfl) rfl rfl rfl (le_refl _) fun d exists' a waits => ?_
    exact ⟨exists', waiting_update rfl (.inl kept) waits⟩
  | readFinished at_read _ _ _ grown =>
    exact owned.reactor (by rw [at_read]; rfl) rfl rfl grown.freed grown.le same
  | @readItem fr c input recvlen item made at_read _ _ _ _ _ grown addr =>
    have blocks := blocks_made grown addr
    refine owned.grow ?_ blocks.1 blocks.2 (le_trans grown.le (Nat.le_succ _)) same
    have empty : s.reactor.pushing = [] := by rw [at_read]; rfl
    unfold State.blocks State.items
    rw [empty]
    show (((item :: (s.srv.rqueue ++ s.workers.filterMap Worker.carries)).flatMap Item.blocks) ++
      made.freed).Perm _
    rw [grown.freed, List.flatMap_cons, List.nil_append, List.append_assoc]
  | @pushed fr c item at_push =>
    refine owned.congr ?_ (le_refl _) same
    refine List.Perm.append_right _ (List.Perm.flatMap_right Item.blocks ?_)
    unfold State.items
    rw [at_push]
    show (s.srv.rqueue ++ [item] ++ s.workers.filterMap Worker.carries).Perm
      ([item] ++ s.srv.rqueue ++ s.workers.filterMap Worker.carries)
    exact List.perm_append_comm.append_right _
  | posted at_post => exact owned.reactor (by rw [at_post]; rfl) rfl rfl rfl (le_refl _) same
  | writeIdle at_write =>
    exact owned.reactor (by rw [at_write]; rfl) (pushing_resume _) rfl rfl (le_refl _) same
  | writeLooping at_write _ _ _ =>
    exact owned.reactor (by rw [at_write]; rfl) rfl rfl rfl (le_refl _) same
  | @written fr c script b heap obj flags at_write _ stored _ _ _ done =>
    rw [at_write] at within
    have before : s.reactor.pushing = [] := by rw [at_write]; rfl
    rcases done with ⟨rfl, rfl⟩ | ⟨rfl, empty⟩
    · refine owned.reactor before (pushing_resume _) rfl rfl (le_refl _) fun d exists' a waits => ?_
      exact ⟨exists', waiting_update rfl (.inl (by rfl)) waits⟩
    · exact owned.unload within.1 stored before (pushing_resume _) rfl rfl rfl rfl empty
  | arrived => exact owned.congr (.of_eq (blocks_congr rfl rfl rfl rfl)) (le_refl _) same
  | sendIdle => exact owned
  | sent _ _ _ _ _ grown => exact owned.store rfl rfl rfl grown
  | worker moved =>
    obtain ⟨blocks, next⟩ := blocks_worker moved
    obtain ⟨_, rqueue, sem, heap, srv⟩ := moved.frame
    refine owned.congr blocks (le_of_eq next.symm) fun d exists' a waits => ?_
    rw [srv] at exists' waits
    exact ⟨exists', waits⟩
  | @interrupted w at_wait =>
    have items : (s.setWorker w .size).items.Perm s.items := items_turn at_wait rfl rfl rfl rfl
    exact owned.congr ((items.flatMap_right Item.blocks).append_right _) (le_refl _) same

/-! ## Runs -/

/-- A blank server is logged. -/
theorem Blank.logged (blank : Blank s) : Logged s := by
  refine ⟨?_, ?_, ?_, ?_, ?_⟩
  · rw [blank.history, blank.pushing]
    rfl
  · rw [blank.history, blank.rqueue]
    rfl
  · rw [blank.history, blank.idle rfl]
    exact .refl _
  · rw [blank.history, blank.pushing]
    exact .nil
  · rw [blank.history, blank.pushing]
    exact fun _ member => nomatch member

/-- A blank server owns nothing. -/
theorem Blank.owned (blank : Blank s) : Owned s := by
  have idle : ∀ c, c < s.srv.nconn → s.srv.waiting c = none := by
    intro c known
    rw [blank.nconn] at known
    rw [Nat.lt_one_iff.mp known]
    exact congrArg (Option.map Buf.addr) blank.sendptr
  refine ⟨?_, ?_, ?_, ?_⟩
  · rw [blank.blocks]
    exact .nil
  · rw [blank.blocks]
    exact fun _ member => nomatch member
  · intro c known a waits
    rw [idle c known] at waits
    contradiction
  · intro c d known _ a waits
    rw [idle c known] at waits
    contradiction

/-- In every state of every run the history accounts for the queue and every address is in one
place. -/
theorem custody {allow : State → Label → Prop} (reached : Reach EpollNet.step allow Started s) :
    Logged s ∧ Owned s := by
  have all : Known s ∧ Logged s ∧ Owned s := by
    apply reached.invariant
    · exact fun _ started => ⟨started.known, started.blank.logged, started.blank.owned⟩
    · intro s l s' inv _ stepped
      have cases := step_cases stepped
      exact ⟨inv.1.step cases, inv.2.1.step cases, inv.2.2.step inv.1 cases⟩
  exact all.2

end EpollNet
