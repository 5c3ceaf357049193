import EpollNet.Basis.Calls
import EpollNet.Net.Server
import EpollNet.Verif.DataList
import Mathlib.Data.List.InsertIdx
import Mathlib.Data.List.ReduceOption

/-!
# Runs of list and queue functions

Any calls of the list functions, one after the other, do to a list of nodes what they say to a
sequence. The queue the server is modelled with is such a sequence, so the queue of `queue.c` is
the one of the model, on the heap.
-/

namespace EpollNet

open EpollNet.Basis EpollNet.Basis.Cells

variable {α : Type}

/-! ## Calls on a list -/

/-- How the node for `DataList_Removenode` is obtained. A node that was obtained earlier and is
still in the list is the one a walk arrives at now. -/
inductive Pick (α : Type) where
  /-- From `DataList_Find`. -/
  | find (cmpfun : α → Int)
  /-- From `DataList_GetHead` and so many calls of `DataList_GetNext`. -/
  | walk (steps : Nat)

/-- A call, with the address `malloc` gives it. -/
inductive ListOp (α : Type) where
  /-- `DataList_Addtail`. -/
  | addtail (node : Nat) (data : α)
  /-- `DataList_Removehead`. -/
  | removehead
  /-- `DataList_Removetail`. -/
  | removetail
  /-- `DataList_Removenode` on a node obtained from the list, unless it is `NULL`. -/
  | removenode (pick : Pick α)
  /-- `DataList_Clear`. -/
  | clear

namespace DataList

/-- Several calls of `DataList_GetNext`. -/
def walkFrom (m : Nodes α) : Nat → Option Nat → Exec (Option Nat)
  | 0, node => .ok node
  | steps + 1, node => do
    let node ← getNext m node
    walkFrom m steps node

/-- The node obtained. -/
def obtainNode (fuel : Nat) (list : DataList) (m : Nodes α) : Pick α → Exec (Option Nat)
  | .find cmpfun => list.find m fuel cmpfun
  | .walk steps => walkFrom m steps list.getHead

/-- A call: the data it returns, and the list and the heap afterwards. -/
def call (fuel : Nat) : ListOp α → DataList × Nodes α → Exec (Option α × DataList × Nodes α)
  | .addtail node data, (list, m) => do
    let (list, m) ← list.addtail m (some node) data
    .ok (none, list, m)
  | .removehead, (list, m) => list.removehead m
  | .removetail, (list, m) => list.removetail m
  | .removenode pick, (list, m) => do
    let node ← list.obtainNode fuel m pick
    match node with
    | some _ => list.removenode m node
    | none => .ok (none, list, m)
  | .clear, (list, m) => do
    let (list, m) ← clear fuel list m
    .ok (none, list, m)

end DataList

/-- What `malloc` gives the call is not in use. -/
def ListOp.Granted : ListOp α → DataList × Nodes α → Prop
  | .addtail node _, (_, m) => m node = none
  | _, _ => True

/-! ## Calls on a sequence -/

/-- The place of the node obtained; a place beyond the end is `NULL`. -/
def Pick.place (pick : Pick α) (xs : List α) : Nat :=
  match pick with
  | .find cmpfun => xs.findIdx fun d => cmpfun d = 0
  | .walk steps => steps

/-- A call on a sequence. -/
def ListOp.onSequence : ListOp α → List α → Option α × List α
  | .addtail _ data, xs => (none, xs ++ [data])
  | .removehead, xs => (xs.head?, xs.tail)
  | .removetail, xs => (xs.getLast?, xs.dropLast)
  | .removenode pick, xs => (xs[pick.place xs]?, xs.eraseIdx (pick.place xs))
  | .clear, _ => (none, [])

variable {m : Nodes α} {list : DataList} {cells : Cells α} {fuel : Nat}

/-! ## One call -/

/-- Walking from the first cell arrives at the cell so many places on. -/
theorem walkFrom_chain {p : Option Nat} (chain : Chain m p cells none) (steps : Nat) :
    DataList.walkFrom m steps (first cells none) = .ok (cells[steps]?.map Prod.fst) := by
  induction steps generalizing p cells with
  | zero => cases cells <;> rfl
  | succ steps ih =>
    cases cells with
    | nil =>
      have empty : Chain m p ([] : Cells α) none := trivial
      exact ih empty
    | cons c cells =>
      obtain ⟨a, d⟩ := c
      obtain ⟨here, rest⟩ := chain
      simp only [DataList.walkFrom, DataList.getNext, first_cons]
      rw [Nodes.load_some here, Exec.bind_ok, Exec.bind_ok, ih rest, List.getElem?_cons_succ]

/-- A node is obtained from the cell at its place. -/
theorem obtain_linked (linked : Linked m list cells) (enough : cells.length < fuel)
    (pick : Pick α) :
    list.obtainNode fuel m pick = .ok (cells[pick.place cells.data]?.map Prod.fst) := by
  cases pick with
  | walk steps =>
    rw [DataList.obtainNode, DataList.getHead, linked.head]
    exact walkFrom_chain linked.chain steps
  | find cmpfun =>
    rw [DataList.obtainNode, DataList.find, linked.head, findLoop_chain linked.chain cmpfun enough]
    have place : (Cells.data cells).findIdx (fun d => cmpfun d = 0) =
        cells.findIdx fun c => cmpfun c.2 = 0 := List.findIdx_map ..
    rw [Pick.place, place, ← List.find?_eq_getElem?_findIdx]

/-- A call ends without a fault, with the cells of the sequence it makes. -/
theorem call_linked (linked : Linked m list cells) (enough : cells.length < fuel) (op : ListOp α)
    (granted : op.Granted (list, m)) :
    ∃ list' m' cells', DataList.call fuel op (list, m) =
        .ok ((op.onSequence cells.data).1, list', m') ∧
      Linked m' list' cells' ∧ Cells.data cells' = (op.onSequence cells.data).2 := by
  cases op with
  | addtail node data =>
    obtain ⟨list', m', added, left, _⟩ := addtail_linked linked granted data
    refine ⟨list', m', _, ?_, left, by rw [data_append]; rfl⟩
    rw [DataList.call, added, Exec.bind_ok]
    rfl
  | removehead =>
    cases cells with
    | nil => exact ⟨list, m, [], removehead_nil linked, linked, rfl⟩
    | cons c cells =>
      obtain ⟨list', m', removed, left, _⟩ := removehead_cons linked
      exact ⟨list', m', cells, removed, left, rfl⟩
  | removetail =>
    rcases List.eq_nil_or_concat' cells with rfl | ⟨cells, ⟨t, d⟩, rfl⟩
    · exact ⟨list, m, [], removetail_nil linked, linked, rfl⟩
    · obtain ⟨list', m', removed, left, _⟩ := removetail_append linked
      refine ⟨list', m', cells, ?_, left, ?_⟩
      · rw [DataList.call, removed, ListOp.onSequence, data_append]
        simp
      · rw [ListOp.onSequence, data_append]
        simp
  | removenode pick =>
    have obtained := obtain_linked linked enough pick
    have same : (Cells.data cells)[pick.place cells.data]? =
        cells[pick.place cells.data]?.map Prod.snd := List.getElem?_map
    simp only [DataList.call, ListOp.onSequence]
    rw [obtained, Exec.bind_ok, same]
    generalize pick.place cells.data = i
    by_cases inside : i < cells.length
    · have split : cells = cells.take i ++ cells[i] :: cells.drop (i + 1) := by simp
      obtain ⟨list', m', removed, left, _⟩ := removenode_linked (split ▸ linked)
      refine ⟨list', m', cells.take i ++ cells.drop (i + 1), ?_, left, ?_⟩
      · rw [List.getElem?_eq_getElem inside]
        exact removed
      · rw [← List.eraseIdx_eq_take_drop_succ]
        exact (List.eraseIdx_map ..).symm
    · rw [List.getElem?_eq_none (by omega)]
      refine ⟨list, m, cells, rfl, linked, ?_⟩
      rw [List.eraseIdx_of_length_le]
      simpa [Cells.data] using inside
  | clear =>
    obtain ⟨list', m', cleared, left, _⟩ := clear_linked linked enough
    refine ⟨list', m', [], ?_, left, rfl⟩
    rw [DataList.call, cleared, Exec.bind_ok]
    rfl

/-- It makes the sequence longer by one at most. -/
theorem length_onSequence (xs : List α) (op : ListOp α) :
    (op.onSequence xs).2.length ≤ xs.length + 1 := by
  cases op with
  | addtail node data => simp [ListOp.onSequence]
  | removehead => simp [ListOp.onSequence]; omega
  | removetail => simp [ListOp.onSequence]; omega
  | removenode pick => exact (List.length_eraseIdx_le ..).trans (Nat.le_succ _)
  | clear => simp [ListOp.onSequence]

/-! ## Several calls -/

/-- The list stands for a sequence, with rounds enough for its loops in so many more calls. -/
def Stands (fuel more : Nat) (object : DataList × Nodes α) (xs : List α) : Prop :=
  ∃ cells : Cells α, Linked object.2 object.1 cells ∧ cells.data = xs ∧ cells.length + more < fuel

/-- A call on the list is a call on the sequence. -/
theorem call_stands (more : Nat) (op : ListOp α) (object : DataList × Nodes α) (xs : List α)
    (stands : Stands fuel (more + 1) object xs) (granted : op.Granted object) :
    ∃ object', DataList.call fuel op object = .ok ((op.onSequence xs).1, object') ∧
      Stands fuel more object' (op.onSequence xs).2 := by
  obtain ⟨list, m⟩ := object
  obtain ⟨cells, linked, rfl, enough⟩ := stands
  have room : cells.length < fuel := by omega
  obtain ⟨list', m', cells', called, linked', data'⟩ := call_linked linked room op granted
  have longer : cells'.length ≤ cells.length + 1 := by
    have lengths := length_onSequence (Cells.data cells) op
    rw [← data'] at lengths
    simpa [Cells.data] using lengths
  exact ⟨(list', m'), called, cells', linked', data', by omega⟩

/-- What a list looks like from outside, its nodes in order and the sequence it holds. -/
structure Represents (m : Nodes α) (list : DataList) (nodes : List Nat) (xs : List α) : Prop where
  /-- No node twice. -/
  nodup : nodes.Nodup
  /-- Following `next` from the head visits them. -/
  forward : Walk m Node.next list.head nodes
  /-- Following `prev` from the tail visits them the other way round. -/
  backward : Walk m Node.prev list.tail nodes.reverse
  /-- The visit ends at the tail. -/
  last : list.tail = nodes.getLast?
  /-- There is a head if there is a tail. -/
  ends : list.head = none ↔ list.tail = none
  /-- Nothing lies ahead of the head. -/
  front : ∀ a, list.head = some a → ∃ n, m a = some n ∧ n.prev = none
  /-- Nothing lies behind the tail. -/
  back : ∀ a, list.tail = some a → ∃ n, m a = some n ∧ n.next = none
  /-- The nodes are counted. -/
  count : list.count = BitVec.ofNat 32 nodes.length
  /-- They hold the sequence. -/
  data : nodes.map (fun a => (m a).map Node.data) = xs.map some

/-- A linked list looks like the sequence of its cells. -/
theorem Linked.represents (linked : Linked m list cells) :
    Represents m list cells.addrs cells.data := by
  obtain ⟨nodup, chain, head, tail, count⟩ := linked
  refine ⟨nodup, head ▸ chain.forward, tail ▸ chain.backward, ?_, ?_, ?_, ?_, ?_, ?_⟩
  · rcases List.eq_nil_or_concat' cells with rfl | ⟨before, t, rfl⟩
    · exact tail
    · rw [tail, last_append, addrs_append]
      simp [addrs, last]
  · rw [head, tail]
    rcases List.eq_nil_or_concat' cells with rfl | ⟨before, t, rfl⟩
    · exact Iff.rfl
    · cases before <;> simp [first, last]
  · intro a at_head
    cases cells with
    | nil => exact absurd (head.symm.trans at_head) (Option.some_ne_none a).symm
    | cons c cells =>
      obtain rfl : c.1 = a := Option.some.inj (head.symm.trans at_head)
      exact ⟨_, chain.1, rfl⟩
  · intro a at_tail
    rcases List.eq_nil_or_concat' cells with rfl | ⟨before, t, rfl⟩
    · exact absurd (tail.symm.trans at_tail) (Option.some_ne_none a).symm
    · rw [last_append] at tail
      obtain rfl : t.1 = a := Option.some.inj (tail.symm.trans at_tail)
      exact ⟨_, (chain_append.mp chain).2.1, rfl⟩
  · rw [count, addrs, List.length_map]
  · exact chain.contents

/-! ## Calls on a queue -/

/-- A call on a queue, with the address `malloc` gives it. -/
inductive QueueOp (α : Type) where
  /-- `dataQueue_push`. -/
  | push (node : Nat) (data : α)
  /-- `dataQueue_pop`. -/
  | pop

/-- The call on the list that it makes. -/
def QueueOp.onList : QueueOp α → ListOp α
  | .push node data => .addtail node data
  | .pop => .removehead

/-- A call on a queue: the data it returns, and the queue and the heap afterwards. -/
def DataQueue.call : QueueOp α → DataQueue × Nodes α → Exec (Option α × DataQueue × Nodes α)
  | .push node data, (queue, m) => do
    let (queue, m) ← queue.push m (some node) data
    .ok (none, queue, m)
  | .pop, (queue, m) => queue.pop m

/-- What `malloc` gives the call is not in use. -/
def QueueOp.Granted : QueueOp α → DataQueue × Nodes α → Prop
  | .push node _, (_, m) => m node = none
  | .pop, _ => True

/-- A call on the queue of the server's model. -/
def QueueOp.onQueue : QueueOp α → List α → Option α × List α
  | .push _ data, xs => (none, dataQueuePush xs data)
  | .pop, xs => dataQueuePop xs

/-- The data pushed. -/
def pushedData : List (QueueOp α) → List α
  | [] => []
  | .push _ data :: rest => data :: pushedData rest
  | .pop :: rest => pushedData rest

/-- The queue of the server's model is the sequence. -/
theorem onQueue_eq (op : QueueOp α) (xs : List α) : op.onQueue xs = op.onList.onSequence xs := by
  cases op with
  | push node data => rfl
  | pop => cases xs <;> rfl

/-- What was in the queue and what is pushed comes out in this order, or stays. -/
theorem onQueue_fifo (ops : List (QueueOp α)) (xs : List α) :
    xs ++ pushedData ops = (meaning QueueOp.onQueue ops xs).1.reduceOption ++
      (meaning QueueOp.onQueue ops xs).2 := by
  induction ops generalizing xs with
  | nil => simp [pushedData, meaning]
  | cons op ops ih =>
    cases op with
    | push node data =>
      have rest := ih (xs ++ [data])
      rw [List.append_assoc] at rest
      exact rest
    | pop =>
      cases xs with
      | nil => exact ih []
      | cons x xs => exact congrArg (x :: ·) (ih xs)

variable {m' : Nodes α} {queue : DataQueue}

/-- A call on a queue is the call on its list. -/
theorem DataQueue.call_eq (op : QueueOp α) {data : Option α}
    (called : DataList.call fuel op.onList (queue.list, m) = .ok (data, list, m')) :
    DataQueue.call op (queue, m) = .ok (data, ⟨list⟩, m') := by
  cases op with
  | push node d =>
    simp only [QueueOp.onList, DataList.call] at called
    simp only [DataQueue.call, DataQueue.push]
    cases added : queue.list.addtail m (some node) d with
    | error halt =>
      rw [added] at called
      cases called
    | ok result =>
      rw [added] at called
      cases called
      rfl
  | pop =>
    simp only [QueueOp.onList, DataList.call] at called
    simp only [DataQueue.call, DataQueue.pop]
    rw [called]
    rfl

/-- The queue stands for that of the server's model. -/
def QueueStands (object : DataQueue × Nodes α) (xs : List α) : Prop :=
  ∃ cells : Cells α, Linked object.2 object.1.list cells ∧ cells.data = xs

/-- A call on the queue is a call on the queue of the server's model. -/
theorem DataQueue.call_stands (op : QueueOp α) (object : DataQueue × Nodes α) (xs : List α)
    (stands : QueueStands object xs) (granted : op.Granted object) :
    ∃ object', DataQueue.call op object = .ok ((op.onQueue xs).1, object') ∧
      QueueStands object' (op.onQueue xs).2 := by
  obtain ⟨queue, m⟩ := object
  obtain ⟨cells, linked, rfl⟩ := stands
  have granted' : op.onList.Granted (queue.list, m) := by
    cases op with
    | push node data => exact granted
    | pop => trivial
  obtain ⟨list', m', cells', called, linked', data'⟩ :=
    call_linked linked (Nat.lt_succ_self _) op.onList granted'
  have called' := DataQueue.call_eq op called
  rw [← onQueue_eq] at called' data'
  exact ⟨(⟨list'⟩, m'), called', cells', linked', data'⟩

/-! ## From the start -/

/-- Any calls on a new list end without a fault, with a list that represents the sequence they make,
and any calls on a new queue do what they do in the server's model, which is first in, first out.
Rounds of a loop that exceed the calls in number are enough for it to end. -/
theorem lists_represent_sequences (m : Nodes α) :
    (∀ (ops : List (ListOp α)) (fuel : Nat), ops.length < fuel →
      Permitted (DataList.call fuel) ListOp.Granted ops (DataList.create, m) →
        ∃ list m' nodes,
          calls (DataList.call fuel) ops (DataList.create, m) =
            .ok ((meaning ListOp.onSequence ops []).1, list, m') ∧
          Represents m' list nodes (meaning ListOp.onSequence ops []).2) ∧
    ∀ ops : List (QueueOp α), Permitted DataQueue.call QueueOp.Granted ops (DataQueue.init, m) →
      ∃ queue m' nodes,
        calls DataQueue.call ops (DataQueue.init, m) =
          .ok ((meaning QueueOp.onQueue ops []).1, queue, m') ∧
        Represents m' queue.list nodes (meaning QueueOp.onQueue ops []).2 ∧
        queue.size.toNat = dataQueueSize (meaning QueueOp.onQueue ops []).2 ∧
        pushedData ops = (meaning QueueOp.onQueue ops []).1.reduceOption ++
          (meaning QueueOp.onQueue ops []).2 := by
  refine ⟨fun ops fuel enough granted => ?_, fun ops granted => ?_⟩
  · have stands : Stands fuel ops.length (DataList.create, m) [] :=
      ⟨[], linked_create m, rfl, by simpa using enough⟩
    obtain ⟨⟨list, m'⟩, called, cells, linked, data, _⟩ :=
      calls_refine (Stands fuel) call_stands stands granted
    exact ⟨list, m', cells.addrs, called, data ▸ linked.represents⟩
  · have stands : QueueStands (DataQueue.init, m) [] := ⟨[], linked_create m, rfl⟩
    obtain ⟨⟨queue, m'⟩, called, cells, linked, data⟩ :=
      calls_refine (fun _ => QueueStands) (fun _ => DataQueue.call_stands) stands granted
    refine ⟨queue, m', cells.addrs, called, data ▸ linked.represents, ?_, onQueue_fifo ops []⟩
    have same : (meaning QueueOp.onQueue ops []).2 = cells.data := data.symm
    have counted : queue.list.count.toNat = cells.length % 2 ^ 32 := by
      rw [linked.count, BitVec.toNat_ofNat]
    rw [same]
    simpa [DataQueue.size, DataList.getcount, dataQueueSize, Cells.data] using counted

namespace Sample

/-- Three data are added; the middle one is found and removed, then the tail. -/
def someListOps : List (ListOp Nat) :=
  [.addtail 7 1, .addtail 8 2, .addtail 9 3, .removenode (.find fun d => if d = 2 then 0 else 1),
    .removetail]

/-- Two data are pushed, one is popped. -/
def someQueueOps : List (QueueOp Nat) := [.push 7 1, .push 8 2, .pop]

end Sample

/-- The calls of the samples are served. -/
theorem lists_represent_sequences_samples :
    (∃ list m' nodes, calls (DataList.call 6) Sample.someListOps
        (DataList.create, fun _ => none) = .ok ([none, none, none, some 2, some 3], list, m') ∧
      Represents m' list nodes [1]) ∧
    ∃ queue m' nodes, calls DataQueue.call Sample.someQueueOps (DataQueue.init, fun _ => none) =
        .ok ([none, none, some 1], queue, m') ∧ Represents m' queue.list nodes [2] ∧
      queue.size.toNat = 1 ∧ [1, 2] = [1] ++ [2] := by
  have both := lists_represent_sequences (fun _ : Nat => (none : Option (Node Nat)))
  refine ⟨both.1 Sample.someListOps 6 (by decide) ?_, both.2 Sample.someQueueOps ?_⟩
  · -- three addresses not in use, and two calls that need none
    iterate 3
      refine ⟨rfl, ?_⟩
      rintro _ _ ⟨⟩
    iterate 2
      refine ⟨trivial, ?_⟩
      rintro _ _ ⟨⟩
    trivial
  · iterate 2
      refine ⟨rfl, ?_⟩
      rintro _ _ ⟨⟩
    refine ⟨trivial, ?_⟩
    rintro _ _ ⟨⟩
    trivial

end EpollNet
