import EpollNet.Basis.Chain

/-!
# `list.c` and `queue.c` on the heap

The functions of `list.c` with the loads and stores they make on the heap of nodes, in order. A
pointer is `NULL` or an address. Following `NULL`, or a pointer to a node that was freed, is a
fault; the two loops count their rounds against a bound and say so when they have not ended. What
`malloc` answers is an argument: the address of the new node, or `NULL`.
-/

namespace EpollNet

open EpollNet.Basis

/-- `struct tagDataList`. -/
structure DataList where
  /-- First node. -/
  head : Option Nat
  /-- Last node. -/
  tail : Option Nat
  /-- Number of nodes. -/
  count : BitVec 32
deriving DecidableEq

variable {α : Type}

/-- `DataNode_Create`: the new node's address, and the heap with it. -/
def dataNodeCreate (m : Nodes α) (answer : Option Nat) (data : α) : Option Nat × Nodes α :=
  match answer with
  | some node => (some node, Function.update m node (some ⟨data, none, none⟩))
  | none => (none, m)

namespace DataList

/-- `DataList_Create`, its `malloc` succeeding. -/
def create : DataList := ⟨none, none, 0⟩

/-! ## Looking -/

/-- The loop of `DataList_Find`. -/
def findLoop (m : Nodes α) (cmpfun : α → Int) : Nat → Option Nat → Exec (Option Nat)
  | 0, _ => .error .looping
  | fuel + 1, current =>
    match current with
    | none => .ok none
    | some _ => do
      let node ← m.load current
      if cmpfun node.data = 0 then .ok current else findLoop m cmpfun fuel node.next

/-- `DataList_Find` with the comparison of its `data` with a node's. -/
def find (list : DataList) (m : Nodes α) (fuel : Nat) (cmpfun : α → Int) : Exec (Option Nat) :=
  findLoop m cmpfun fuel list.head

/-- `DataList_GetHead`. -/
def getHead (list : DataList) : Option Nat := list.head

/-- `DataList_GetNext`. -/
def getNext (m : Nodes α) (node : Option Nat) : Exec (Option Nat) :=
  match node with
  | some _ => do
    let node ← m.load node
    .ok node.next
  | none => .ok none

/-- `DataList_GetCurrentData`. -/
def getCurrentData (m : Nodes α) (node : Option Nat) : Exec (Option α) :=
  match node with
  | some _ => do
    let node ← m.load node
    .ok (some node.data)
  | none => .ok none

/-- `DataList_Getcount`. -/
def getcount (list : DataList) : BitVec 32 := list.count

/-! ## Adding -/

/-- `DataList_Addtail`. -/
def addtail (list : DataList) (m : Nodes α) (answer : Option Nat) (data : α) :
    Exec (DataList × Nodes α) :=
  let (node, m) := dataNodeCreate m answer data
  match list.tail with
  | some _ => do
    let m ← m.store list.tail fun n => { n with next := node }
    let m ← m.store node fun n => { n with prev := list.tail }
    .ok ({ list with tail := node, count := list.count + 1 }, m)
  | none => .ok ({ head := node, tail := node, count := list.count + 1 }, m)

/-- `DataList_Addhead`, which links the new node after it has become the head. -/
def addhead (list : DataList) (m : Nodes α) (answer : Option Nat) (data : α) :
    Exec (DataList × Nodes α) :=
  let (node, m) := dataNodeCreate m answer data
  match list.head with
  | some _ => do
    let list := { list with head := node }
    let m ← m.store node fun n => { n with next := list.head }
    let m ← m.store list.head fun n => { n with prev := node }
    .ok ({ list with count := list.count + 1 }, m)
  | none => .ok ({ head := node, tail := node, count := list.count + 1 }, m)

/-! ## Removing -/

/-- `DataList_Removehead` from its test of the new head to the end of the branch. -/
def fixHead (list : DataList) (m : Nodes α) : Exec (DataList × Nodes α) :=
  match list.head with
  | none => .ok ({ list with tail := none }, m)
  | some _ => do
    let m ← m.store list.head fun n => { n with prev := none }
    let node ← m.load list.head
    match node.next with
    | some _ => do
      let m ← m.store node.next fun n => { n with prev := list.head }
      .ok (list, m)
    | none => .ok ({ list with tail := list.head }, m)

/-- `DataList_Removehead`. The data is `none` if the list is empty. -/
def removehead (list : DataList) (m : Nodes α) : Exec (Option α × DataList × Nodes α) :=
  match list.head with
  | none => .ok (none, list, m)
  | some temp => do
    let node ← m.load list.head
    let (list, m) ← fixHead { list with head := node.next } m
    let node ← m.load (some temp)
    let m ← m.free (some temp)
    .ok (some node.data, { list with count := list.count - 1 }, m)

/-- `DataList_Removetail` from its test of the new tail to the end of the branch. -/
def fixTail (list : DataList) (m : Nodes α) : Exec (DataList × Nodes α) :=
  match list.tail with
  | none => .ok ({ list with head := none }, m)
  | some _ => do
    let m ← m.store list.tail fun n => { n with next := none }
    let node ← m.load list.tail
    match node.prev with
    | some _ => do
      let m ← m.store node.prev fun n => { n with next := list.tail }
      .ok (list, m)
    | none => .ok ({ list with head := list.tail }, m)

/-- `DataList_Removetail`. -/
def removetail (list : DataList) (m : Nodes α) : Exec (Option α × DataList × Nodes α) :=
  match list.tail with
  | none => .ok (none, list, m)
  | some temp => do
    let node ← m.load list.tail
    let (list, m) ← fixTail { list with tail := node.prev } m
    let node ← m.load (some temp)
    let m ← m.free (some temp)
    .ok (some node.data, { list with count := list.count - 1 }, m)

/-- `DataList_Removenode`. -/
def removenode (list : DataList) (m : Nodes α) (node : Option Nat) :
    Exec (Option α × DataList × Nodes α) :=
  if node = list.head then removehead list m
  else if node = list.tail then removetail list m
  else do
    let n ← m.load node
    let m ← m.store n.prev fun p => { p with next := n.next }
    let n ← m.load node
    let m ← m.store n.next fun p => { p with prev := n.prev }
    let n ← m.load node
    let m ← m.free node
    .ok (some n.data, { list with count := list.count - 1 }, m)

/-- `DataList_Clear`. -/
def clear : Nat → DataList → Nodes α → Exec (DataList × Nodes α)
  | 0, _, _ => .error .looping
  | fuel + 1, list, m =>
    match list.head with
    | none => .ok (list, m)
    | some _ => do
      let (_, list, m) ← removetail list m
      clear fuel list m

/-- `DataList_Delete`: what is left on the heap of nodes. -/
def delete (fuel : Nat) (list : Option DataList) (m : Nodes α) : Exec (Nodes α) :=
  match list with
  | some list => do
    let (_, m) ← clear fuel list m
    .ok m
  | none => .ok m

end DataList

/-! ## `queue.c` -/

/-- `struct tagDataQueue`. -/
structure DataQueue where
  /-- Its list. -/
  list : DataList
deriving DecidableEq

namespace DataQueue

/-- `dataQueue_init`, its `malloc`s succeeding. -/
def init : DataQueue := ⟨DataList.create⟩

/-- `dataQueue_push`. -/
def push (queue : DataQueue) (m : Nodes α) (answer : Option Nat) (data : α) :
    Exec (DataQueue × Nodes α) := do
  let (list, m) ← queue.list.addtail m answer data
  .ok (⟨list⟩, m)

/-- `dataQueue_pop`. -/
def pop (queue : DataQueue) (m : Nodes α) : Exec (Option α × DataQueue × Nodes α) := do
  let (data, list, m) ← queue.list.removehead m
  .ok (data, ⟨list⟩, m)

/-- `dataQueue_size`. -/
def size (queue : DataQueue) : BitVec 32 := queue.list.getcount

/-- `dataQueue_clear`. -/
def clear (fuel : Nat) (queue : Option DataQueue) (m : Nodes α) : Exec (Nodes α) :=
  match queue with
  | some queue => DataList.delete fuel (some queue.list) m
  | none => .ok m

end DataQueue

end EpollNet
