import EpollNet.Basis.Crew
import EpollNet.Verif.Known

/-!
# Where an item may be

An item is built by `event_read`, waits in the receive queue, is carried by the worker that
popped it and is freed by that worker. The history tells the pushes, the pops and the calls of
`procread` apart. Every step moves items between these places, and only the reactor makes one
and only a worker frees one.
-/

namespace EpollNet

open EpollNet.Basis

/-! ## The places -/

/-- The item a worker is presenting to `procread`, or about to. -/
def Worker.presents : Worker → Option Item
  | .call item | .running item => some item
  | .wait | .size | .pop | .free _ | .exited => none

/-- The item `event_read` is about to push. -/
def Pc.pushing : Pc → List Item
  | .push _ _ item => [item]
  | _ => []

/-- The item a worker has popped and not freed. -/
def Worker.carries : Worker → Option Item
  | .call item | .running item | .free item => some item
  | .wait | .size | .pop | .exited => none

/-- The item a worker has popped and not yet handed to `procread`. -/
def Worker.handing : Worker → Option Item
  | .call item => some item
  | .wait | .size | .pop | .running _ | .free _ | .exited => none

/-- Every item that was built and not freed. -/
def State.items (s : State) : List Item :=
  s.reactor.pushing ++ s.srv.rqueue ++ s.workers.filterMap Worker.carries

/-- The addresses `Server_Process` frees with an item. -/
def Item.blocks (item : Item) : List Nat := item.addr :: (item.recvptr.map Buf.addr).toList

/-- The addresses of items and of their buffers, and every address freed so far. -/
def State.blocks (s : State) : List Nat := s.items.flatMap Item.blocks ++ s.srv.heap.freed

/-! ## The history -/

/-- Items built by `event_read`, oldest first. -/
def chunks : List QueueEvent → List Item
  | [] => []
  | .read item :: before => chunks before ++ [item]
  | .push _ :: before | .pop _ _ :: before | .start _ _ :: before | .finish _ _ :: before =>
    chunks before

/-- Items pushed, oldest first. -/
def pushed : List QueueEvent → List Item
  | [] => []
  | .push item :: before => pushed before ++ [item]
  | .read _ :: before | .pop _ _ :: before | .start _ _ :: before | .finish _ _ :: before =>
    pushed before

/-- Items popped, oldest first. -/
def popped : List QueueEvent → List Item
  | [] => []
  | .pop _ item :: before => popped before ++ [item]
  | .read _ :: before | .push _ :: before | .start _ _ :: before | .finish _ _ :: before =>
    popped before

/-- Items handed to `procread`, oldest first. -/
def handed : List QueueEvent → List Item
  | [] => []
  | .start _ item :: before => handed before ++ [item]
  | .read _ :: before | .push _ :: before | .pop _ _ :: before | .finish _ _ :: before =>
    handed before

variable {s s' : State}

/-! ## Moves -/

/-- Returning from a callback pushes nothing. -/
theorem pushing_resume (fr : Frame) : fr.resume.pushing = [] :=
  resume_between (motive := fun pc => pc.pushing = []) (fun _ => rfl) rfl fr

/-- A test pushes nothing. -/
theorem pushing_dispatch (fr : Frame) (event : Nat → EpollEvent) :
    (fr.dispatch event).pushing = [] :=
  dispatch_between (motive := fun pc => pc.pushing = []) (fun _ => rfl) (fun _ _ => rfl)
    (fun _ => rfl) rfl fr event

/-- The items stay when nobody moves one. -/
theorem items_congr (pushing : s'.reactor.pushing = s.reactor.pushing)
    (rqueue : s'.srv.rqueue = s.srv.rqueue) (workers : s'.workers = s.workers) :
    s'.items = s.items := by
  rw [State.items, pushing, rqueue, workers]
  rfl

/-- What `Server_Process` frees with an item. -/
theorem freed_item (heap : Heap) (item : Item) :
    ((cStrFree heap item.recvptr).free item.addr).freed = item.blocks ++ heap.freed := by
  unfold cStrFree Item.blocks
  cases item.recvptr <;> rfl

/-- Freeing leaves the next address. -/
theorem next_item (heap : Heap) (item : Item) :
    ((cStrFree heap item.recvptr).free item.addr).next = heap.next := by
  unfold cStrFree
  cases item.recvptr <;> rfl

/-- A worker that carries the same as before leaves the items. -/
theorem items_turn {w : Nat} {old new : Worker} (at_old : s.workers[w]? = some old)
    (workers : s'.workers = s.workers.set w new) (same : new.carries = old.carries)
    (reactor : s'.reactor = s.reactor) (rqueue : s'.srv.rqueue = s.srv.rqueue) :
    s'.items.Perm s.items := by
  rw [State.items, State.items, reactor, rqueue, workers]
  exact (Crew.filterMap_set_same at_old Worker.carries same).append_left _

/-- A worker moves items, or frees the one it carries. -/
theorem items_worker {w : Nat} (moved : WorkerStep s w s') :
    (s'.items.Perm s.items ∧ s'.srv.heap = s.srv.heap) ∨
    ∃ item, s.items.Perm (item :: s'.items) ∧
      s'.srv.heap = (cStrFree s.srv.heap item.recvptr).free item.addr := by
  cases moved with
  | taken at_wait _ => exact .inl ⟨items_turn at_wait rfl rfl rfl rfl, rfl⟩
  | sized at_size _ => exact .inl ⟨items_turn at_size rfl rfl rfl rfl, rfl⟩
  | sizedEmpty at_size _ => exact .inl ⟨items_turn at_size rfl rfl rfl rfl, rfl⟩
  | poppedEmpty at_pop _ => exact .inl ⟨items_turn at_pop rfl rfl rfl rfl, rfl⟩
  | @popped item rest at_pop queue =>
    refine .inl ⟨?_, rfl⟩
    have carried : ((s.workers.set w (.call item)).filterMap Worker.carries).Perm
        (item :: s.workers.filterMap Worker.carries) :=
      Crew.filterMap_set_take at_pop Worker.carries rfl rfl
    simp only [State.items, queue, List.append_assoc]
    exact ((carried.append_left rest).trans List.perm_middle).append_left _
  | called at_call => exact .inl ⟨items_turn at_call rfl rfl rfl rfl, rfl⟩
  | returned at_running => exact .inl ⟨items_turn at_running rfl rfl rfl rfl, rfl⟩
  | @freed item at_free =>
    refine .inr ⟨item, ?_, rfl⟩
    have dropped : (s.workers.filterMap Worker.carries).Perm
        (item :: (s.workers.set w .wait).filterMap Worker.carries) :=
      Crew.filterMap_set_drop at_free Worker.carries rfl rfl
    exact (dropped.append_left _).trans List.perm_middle

/-- A worker's step keeps the addresses together: it moves them or frees them. -/
theorem blocks_worker {w : Nat} (moved : WorkerStep s w s') :
    s'.blocks.Perm s.blocks ∧ s'.srv.heap.next = s.srv.heap.next := by
  unfold State.blocks
  rcases items_worker moved with ⟨items, heap⟩ | ⟨item, items, heap⟩
  · rw [heap]
    exact ⟨(items.flatMap_right Item.blocks).append_right _, rfl⟩
  · rw [heap, freed_item, next_item]
    have split : (s.items.flatMap Item.blocks).Perm
        (item.blocks ++ s'.items.flatMap Item.blocks) := items.flatMap_right Item.blocks
    refine ⟨?_, rfl⟩
    calc s'.items.flatMap Item.blocks ++ (item.blocks ++ s.srv.heap.freed)
      _ = (s'.items.flatMap Item.blocks ++ item.blocks) ++ s.srv.heap.freed := by
        rw [List.append_assoc]
      _ |>.Perm ((item.blocks ++ s'.items.flatMap Item.blocks) ++ s.srv.heap.freed) :=
        List.perm_append_comm.append_right _
      _ |>.Perm (s.items.flatMap Item.blocks ++ s.srv.heap.freed) := split.symm.append_right _

/-! ## Starting -/

/-- No queue, no item, no buffer and no allocation yet. -/
structure Blank (s : State) : Prop where
  /-- The receive queue is empty. -/
  rqueue : s.srv.rqueue = []
  /-- Its semaphore is zero. -/
  sem : s.srv.sem = 0
  /-- Nothing was allocated or freed. -/
  heap : s.srv.heap = ⟨0, []⟩
  /-- Nothing happened. -/
  history : s.history = []
  /-- The reactor is between batches. -/
  reactor : s.reactor = .blocked ∨ s.reactor = .stopped
  /-- Every worker waits. -/
  workers : ∃ n, s.workers = List.replicate n .wait
  /-- Only the listening object was created. -/
  nconn : s.srv.nconn = serverConn + 1
  /-- It has nothing to send. -/
  sendptr : (s.srv.conns serverConn).sendptr = none

/-- A server starts blank. -/
theorem Started.blank (started : Started s) : Blank s := by
  have listenErr : ∀ srv : Server, srv.rqueue = [] → srv.sem = 0 → srv.heap = ⟨0, []⟩ →
      srv.nconn = serverConn + 1 → (srv.conns serverConn).sendptr = none →
      Blank ⟨srv.listenErr, .stopped, [], []⟩ := by
    intro srv rqueue sem heap nconn sendptr
    rcases listenErr_cases srv with same | ⟨_, closed⟩
    · rw [same]
      exact ⟨rqueue, sem, heap, rfl, .inr rfl, ⟨0, rfl⟩, nconn, sendptr⟩
    · rw [closed]
      refine ⟨rqueue, sem, heap, rfl, .inr rfl, ⟨0, rfl⟩, nconn, ?_⟩
      dsimp only
      rw [Function.update_self]
      exact sendptr
  obtain ⟨memory, event, failed | ⟨sock, _, _, failed | ⟨granted, workers, running⟩⟩⟩ :=
    started.cases
  · rw [failed]
    refine listenErr _ rfl rfl rfl rfl ?_
    simp [Server.serverCreate, connobjReset, createNewConnObj]
  · rw [failed]
    refine listenErr _ rfl rfl rfl rfl ?_
    simp [Server.listening, Server.serverCreate, connobjReset, createNewConnObj]
  · rw [running]
    refine ⟨rfl, rfl, rfl, rfl, .inl rfl, ⟨workers, rfl⟩, rfl, ?_⟩
    simp [Server.epollEventAddConn, Server.listening, Server.serverCreate, connobjReset,
      createNewConnObj]

/-- A blank server pushes nothing. -/
theorem Blank.pushing (blank : Blank s) : s.reactor.pushing = [] := by
  rcases blank.reactor with at_blocked | at_stopped
  · rw [at_blocked]
    rfl
  · rw [at_stopped]
    rfl

/-- The workers of a blank server carry nothing. -/
theorem Blank.idle {β : Type} {carries : Worker → Option β} (blank : Blank s)
    (idle : carries .wait = none) : s.workers.filterMap carries = [] := by
  obtain ⟨n, workers⟩ := blank.workers
  rw [workers]
  exact List.filterMap_eq_nil_iff.mpr fun pc member => (List.eq_of_mem_replicate member) ▸ idle

/-- A blank server has no address in any place. -/
theorem Blank.blocks (blank : Blank s) : s.blocks = [] := by
  rw [State.blocks, State.items, blank.pushing, blank.rqueue, blank.heap,
    blank.idle rfl]
  rfl

end EpollNet
