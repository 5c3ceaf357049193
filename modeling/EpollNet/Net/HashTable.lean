import EpollNet.Net.DataList

/-!
# `hash.c` on the heap

The functions of `hash.c` over the lists of `list.c`: an array of buckets, each `NULL` or a node
that owns a list. All lists lie in one heap. Accessing the array beyond its end is a fault. What
each `malloc` answers is an argument.
-/

namespace EpollNet

open EpollNet.Basis

/-- What is used as a key, with its `strlen`. -/
class Key (K : Type) where
  /-- Number of characters. -/
  strlen : K → Nat

/-- `struct tagHashNode`. -/
structure HashNode where
  /-- Its list. -/
  list : Option DataList
deriving DecidableEq

/-- `struct tagHashTable`. -/
structure HashTable (K α : Type) where
  /-- Number of buckets. -/
  hashsize : BitVec 32
  /-- Hash of a key of this length; an `int`. -/
  hashfun : K → Nat → Int
  /-- Comparison of a key with data. -/
  hashcmp : K → α → Int
  /-- The buckets. -/
  buckets : List (Option HashNode)

/-- What the three `malloc`s of a push answer. -/
structure Grants where
  /-- A hash node is given. -/
  hashnode : Bool
  /-- A list is given. -/
  list : Bool
  /-- The address of a data node. -/
  datanode : Option Nat

variable {K α : Type}

/-- `hashNode_create`. -/
def hashNodeCreate (grants : Grants) : Option HashNode :=
  if grants.hashnode then some ⟨if grants.list then some DataList.create else none⟩ else none

namespace HashTable

/-- The largest `int`. -/
def intMax : Nat := 2147483647

/-- The loop of `hashTable_init` from the bucket `i` on. The index is an `int`, which must not
overflow; it is compared as an `unsigned int`. -/
def initLoop (size : BitVec 32) : Nat → Nat → List (Option HashNode) →
    Exec (List (Option HashNode))
  | 0, _, _ => .error .looping
  | rounds + 1, i, buckets =>
    if i < size.toNat then
      if i < intMax then initLoop size rounds (i + 1) (buckets.set i none) else .error .fault
    else .ok buckets

/-- `hashTable_init`, its `malloc`s succeeding; the array it gets holds anything. -/
def init (rounds : Nat) (size : BitVec 32) (hashfun : K → Nat → Int) (hashcmp : K → α → Int)
    (memory : Nat → Option HashNode) : Exec (HashTable K α) := do
  let buckets ← initLoop size rounds 0 ((List.range size.toNat).map memory)
  .ok ⟨size, hashfun, hashcmp, buckets⟩

/-- The index of a key: its hash, made unsigned, modulo the size. -/
def index [Key K] (table : HashTable K α) (key : K) : BitVec 32 :=
  BitVec.ofInt 32 (table.hashfun key (Key.strlen key)) % table.hashsize

/-- Read a bucket. -/
def bucket (table : HashTable K α) (index : BitVec 32) : Exec (Option HashNode) :=
  match table.buckets[index.toNat]? with
  | some bucket => .ok bucket
  | none => .error .fault

/-- Write a bucket. -/
def setBucket (table : HashTable K α) (index : BitVec 32) (bucket : Option HashNode) :
    Exec (HashTable K α) :=
  if index.toNat < table.buckets.length then
    .ok { table with buckets := table.buckets.set index.toNat bucket }
  else .error .fault

/-- `DataList_Find` on the list of a bucket. -/
def findIn (table : HashTable K α) (m : Nodes α) (fuel : Nat) (hashnode : HashNode) (key : K) :
    Exec (Option Nat) :=
  match hashnode.list with
  | some list => list.find m fuel (table.hashcmp key)
  | none => .ok none

/-- `hashTable_remove`. -/
def remove [Key K] (table : HashTable K α) (m : Nodes α) (fuel : Nat) (key : K) :
    Exec (Option α × HashTable K α × Nodes α) := do
  let index := table.index key
  match ← table.bucket index with
  | some hashnode =>
    let datanode ← table.findIn m fuel hashnode key
    match datanode, hashnode.list with
    | some _, some list =>
      let (current, list, m) ← list.removenode m datanode
      let table ← table.setBucket index (some ⟨some list⟩)
      .ok (current, table, m)
    | some _, none => .error .fault
    | none, _ => .ok (none, table, m)
  | none => .ok (none, table, m)

/-- `hashTable_push` from its second test of the bucket on. -/
def pushIn (table : HashTable K α) (m : Nodes α) (index : BitVec 32) (data : α)
    (datanode : Option Nat) : Exec (HashTable K α × Nodes α) := do
  match ← table.bucket index with
  | some hashnode =>
    match hashnode.list with
    | some list =>
      let (list, m) ← list.addtail m datanode data
      let table ← table.setBucket index (some ⟨some list⟩)
      .ok (table, m)
    | none => .error .fault
  | none => .ok (table, m)

/-- `hashTable_push`. -/
def push [Key K] (table : HashTable K α) (m : Nodes α) (key : K) (data : α) (grants : Grants) :
    Exec (HashTable K α × Nodes α) := do
  let index := table.index key
  match ← table.bucket index with
  | some _ => pushIn table m index data grants.datanode
  | none =>
    let table ← table.setBucket index (hashNodeCreate grants)
    pushIn table m index data grants.datanode

/-- `hashTable_pop`. -/
def pop [Key K] (table : HashTable K α) (m : Nodes α) (fuel : Nat) (key : K) :
    Exec (Option α) := do
  let index := table.index key
  match ← table.bucket index with
  | some hashnode =>
    let datanode ← table.findIn m fuel hashnode key
    DataList.getCurrentData m datanode
  | none => .ok none

/-- The body of the loop of `hashTable_clear`. -/
def clearBucket (fuel : Nat) (bucket : Option HashNode) (m : Nodes α) : Exec (Nodes α) :=
  match bucket with
  | some hashnode => DataList.delete fuel hashnode.list m
  | none => .ok m

/-- The loop of `hashTable_clear` from the bucket `i` on. The index is an `int`, which must not
overflow; it is compared as an `unsigned int`. -/
def clearLoop (table : HashTable K α) (fuel : Nat) : Nat → Nat → Nodes α → Exec (Nodes α)
  | 0, _, _ => .error .looping
  | rounds + 1, i, m =>
    if i < table.hashsize.toNat then do
      let bucket ← table.bucket (BitVec.ofNat 32 i)
      let m ← clearBucket fuel bucket m
      if i < intMax then clearLoop table fuel rounds (i + 1) m else .error .fault
    else .ok m

/-- `hashTable_clear`: what is left on the heap of nodes. -/
def clear (rounds fuel : Nat) (table : HashTable K α) (m : Nodes α) : Exec (Nodes α) :=
  table.clearLoop fuel rounds 0 m

end HashTable

end EpollNet
