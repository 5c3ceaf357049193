import EpollNet.Basis.Sections
import EpollNet.Net.DataList

/-!
# A queue under a lock

Threads that call `dataQueue_push` and `dataQueue_pop` between `lock` and `unlock`, as the reactor,
the workers and the pools do. Each statement of `DataList_Addtail` and `DataList_Removehead` is a
step of its own on the list and the heap. Each call of `malloc` has an answer of its own, which goes
by the heap it finds.
-/

namespace EpollNet

open EpollNet.Basis

variable {α : Type}

/-- A call under the lock. -/
inductive QueueCall (α : Type) where
  /-- `dataQueue_push`, whose node comes from that call of `malloc`. -/
  | push (turn : Nat) (data : α)
  /-- `dataQueue_pop`. -/
  | pop

/-- The locals of `DataList_Addtail` and of `DataList_Removehead`. -/
structure QueueOwn (α : Type) where
  /-- `node`. -/
  node : Option Nat
  /-- `temp`. -/
  temp : Option Nat
  /-- `data`, once it is read. -/
  data : Option α
  /-- The list was tested and found without a tail, or without a head. -/
  empty : Bool

/-- A statement. -/
abbrev QueueStage (α : Type) := Stage Halt (DataQueue × Nodes α) (QueueOwn α)

/-- A statement of the list, the heap and the locals. -/
def listStage (act : DataList → Nodes α → QueueOwn α → Exec (DataList × Nodes α × QueueOwn α)) :
    QueueStage α := fun ((queue, m), own) => do
  let (list, m, own) ← act queue.list m own
  .ok ((⟨list⟩, m), own)

/-! ## `DataList_Addtail` -/

/-- `node = DataNode_Create(data)`. -/
def createStage (malloc : Nat → Nodes α → Option Nat) (turn : Nat) (data : α) : QueueStage α :=
  listStage fun list m own =>
    match dataNodeCreate m (malloc turn m) data with
    | (node, m) => .ok (list, m, { own with node := node })

/-- `if (list->tail != NULL)`. -/
def tailStage : QueueStage α :=
  listStage fun list m own => .ok (list, m, { own with empty := list.tail.isNone })

/-- `list->tail->next = node`, or `list->head = node`. -/
def linkStage : QueueStage α :=
  listStage fun list m own =>
    if own.empty then .ok ({ list with head := own.node }, m, own)
    else do
      let m ← m.store list.tail fun n => { n with next := own.node }
      .ok (list, m, own)

/-- `node->prev = list->tail`, unless the list was empty. -/
def backStage : QueueStage α :=
  listStage fun list m own =>
    if own.empty then .ok (list, m, own)
    else do
      let m ← m.store own.node fun n => { n with prev := list.tail }
      .ok (list, m, own)

/-- `list->tail = node`. -/
def endTailStage : QueueStage α :=
  listStage fun list m own => .ok ({ list with tail := own.node }, m, own)

/-- `list->count++`. -/
def countUpStage : QueueStage α :=
  listStage fun list m own => .ok ({ list with count := list.count + 1 }, m, own)

/-! ## `DataList_Removehead` -/

/-- `if (list->head != NULL)`. -/
def headTestStage : QueueStage α :=
  listStage fun list m own => .ok (list, m, { own with empty := list.head.isNone })

/-- A statement of the branch. -/
def unlessEmpty (act : DataList → Nodes α → QueueOwn α → Exec (DataList × Nodes α × QueueOwn α)) :
    QueueStage α :=
  listStage fun list m own => if own.empty then .ok (list, m, own) else act list m own

/-- `temp = list->head`. -/
def tempStage : QueueStage α :=
  unlessEmpty fun list m own => .ok (list, m, { own with temp := list.head })

/-- `list->head = list->head->next`. -/
def nextStage : QueueStage α :=
  unlessEmpty fun list m own => do
    let node ← m.load list.head
    .ok ({ list with head := node.next }, m, own)

/-- The test of the new head, with `list->tail = NULL` or `list->head->prev = NULL`. -/
def prevStage : QueueStage α :=
  unlessEmpty fun list m own =>
    match list.head with
    | none => .ok ({ list with tail := none }, m, own)
    | some _ => do
      let m ← m.store list.head fun n => { n with prev := none }
      .ok (list, m, own)

/-- The test of the node behind the new head, with `list->head->next->prev = list->head` or
`list->tail = list->head`. -/
def fixStage : QueueStage α :=
  unlessEmpty fun list m own =>
    match list.head with
    | none => .ok (list, m, own)
    | some _ => do
      let node ← m.load list.head
      match node.next with
      | some _ => do
        let m ← m.store node.next fun n => { n with prev := list.head }
        .ok (list, m, own)
      | none => .ok ({ list with tail := list.head }, m, own)

/-- `data = temp->data`. -/
def dataStage : QueueStage α :=
  unlessEmpty fun list m own => do
    let node ← m.load own.temp
    .ok (list, m, { own with data := some node.data })

/-- `free(temp)`. -/
def freeStage : QueueStage α :=
  unlessEmpty fun list m own => do
    let m ← m.free own.temp
    .ok (list, m, own)

/-- `list->count--`. -/
def countDownStage : QueueStage α :=
  unlessEmpty fun list m own => .ok ({ list with count := list.count - 1 }, m, own)

/-! ## The section -/

/-- The statements ahead of the one that counts. -/
def QueueCall.stages (malloc : Nat → Nodes α → Option Nat) : QueueCall α → List (QueueStage α)
  | .push turn data => [createStage malloc turn data, tailStage, linkStage, backStage, endTailStage]
  | .pop => [headTestStage, tempStage, nextStage, prevStage, fixStage, dataStage, freeStage]

/-- The one that counts. -/
def QueueCall.count : QueueCall α → QueueStage α
  | .push .. => countUpStage
  | .pop => countDownStage

/-- What a thread does between `lock` and `unlock`. -/
def queueSection (malloc : Nat → Nodes α → Option Nat) :
    Section (QueueCall α) Halt (Option α) (DataQueue × Nodes α) (QueueOwn α) where
  enter _ := ⟨none, none, none, false⟩
  steps call := call.stages malloc ++ [call.count]
  result own := own.data

/-- The call that nothing comes between. -/
def QueueCall.whole (malloc : Nat → Nodes α → Option Nat) :
    QueueCall α → DataQueue × Nodes α → Exec (Option α × DataQueue × Nodes α)
  | .push turn data, (queue, m) => do
    let (queue, m) ← queue.push m (malloc turn m) data
    .ok (none, queue, m)
  | .pop, (queue, m) => queue.pop m

end EpollNet
