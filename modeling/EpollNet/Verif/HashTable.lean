import EpollNet.Basis.Calls
import EpollNet.Basis.Classes
import EpollNet.Net.HashTable
import EpollNet.Verif.DataList

/-!
# Hash tables are multimaps

A hash table holds a list of entries in the order of their pushes. The entries of a bucket are
those whose keys have its index, and they lie in its list; the lists of different buckets lie
apart. So every function of `hash.c` does on one bucket what it says to do on all entries.
-/

namespace EpollNet

open EpollNet.Basis EpollNet.Basis.Cells

variable {K α : Type} [Key K]

/-! ## The multimap -/

/-- A call, with the address `malloc` gives it. -/
inductive HashOp (K α : Type) where
  /-- `hashTable_push`. -/
  | push (key : K) (data : α) (datanode : Nat)
  /-- `hashTable_pop`. -/
  | pop (key : K)
  /-- `hashTable_remove`. -/
  | remove (key : K)

/-- The data of the earliest entry that compares equal to the key. -/
def lookup (hashcmp : K → α → Int) (entries : List (K × α)) (key : K) : Option α :=
  (entries.find? fun e => hashcmp key e.2 = 0).map Prod.snd

/-- A call on the entries: the data it returns, and the entries afterwards. -/
def HashOp.onEntries (hashcmp : K → α → Int) :
    HashOp K α → List (K × α) → Option α × List (K × α)
  | .push key data _, entries => (none, entries ++ [(key, data)])
  | .pop key, entries => (lookup hashcmp entries key, entries)
  | .remove key, entries =>
    (lookup hashcmp entries key, entries.eraseP fun e => hashcmp key e.2 = 0)

/-! ## Calls on a table -/

/-- A call, its `malloc`s succeeding. -/
def HashTable.call (fuel : Nat) : HashOp K α → HashTable K α × Nodes α →
    Exec (Option α × HashTable K α × Nodes α)
  | .push key data datanode, (table, m) => do
    let (table, m) ← table.push m key data ⟨true, true, some datanode⟩
    .ok (none, table, m)
  | .pop key, (table, m) => do
    let data ← table.pop m fuel key
    .ok (data, table, m)
  | .remove key, (table, m) => table.remove m fuel key

/-- What `malloc` gives the call is not in use. -/
def HashOp.Granted : HashOp K α → HashTable K α × Nodes α → Prop
  | .push _ _ datanode, (_, m) => m datanode = none
  | _, _ => True

/-- Keys that compare equal to data pushed under a key have the index of that key. -/
def HashTable.Fits (table : HashTable K α) : HashOp K α → Prop
  | .push key data _ =>
    ∀ key', table.hashcmp key' data = 0 → table.index key' = table.index key
  | _ => True

/-! ## A new table -/

/-- A table all of whose buckets are `NULL`. -/
def HashTable.empty (size : BitVec 32) (hashfun : K → Nat → Int) (hashcmp : K → α → Int) :
    HashTable K α := ⟨size, hashfun, hashcmp, List.replicate size.toNat none⟩

/-- A list whose entries are all `NULL`. -/
theorem eq_replicate_none {buckets : List (Option HashNode)} {n : Nat} (length : buckets.length = n)
    (clear : ∀ j < n, buckets[j]? = some none) : buckets = List.replicate n none := by
  apply List.eq_replicate_iff.mpr
  refine ⟨length, fun bucket member => ?_⟩
  obtain ⟨j, inside, found⟩ := List.getElem_of_mem member
  have here : buckets[j]? = some bucket := by
    rw [List.getElem?_eq_getElem inside, found]
  exact (Option.some.inj (here.symm.trans (clear j (length ▸ inside))))

/-- The loop of `hashTable_init` clears every bucket while its index stays an `int`. -/
theorem initLoop_clears {size : BitVec 32} (small : size.toNat < 2 ^ 31) (rounds i : Nat)
    (buckets : List (Option HashNode)) (within : i ≤ size.toNat) (more : size.toNat < i + rounds)
    (length : buckets.length = size.toNat) (clear : ∀ j < i, buckets[j]? = some none) :
    HashTable.initLoop size rounds i buckets = .ok (List.replicate size.toNat none) := by
  induction rounds generalizing i buckets with
  | zero => omega
  | succ rounds ih =>
    rw [HashTable.initLoop]
    by_cases inside : i < size.toNat
    · have counts : i < HashTable.intMax := by
        unfold HashTable.intMax
        omega
      rw [if_pos inside, if_pos counts]
      apply ih (i + 1) _ inside (by omega)
      · rw [List.length_set, length]
      · intro j before
        by_cases same : j = i
        · subst same
          rw [List.getElem?_set_self (length ▸ inside)]
        · rw [List.getElem?_set_ne (Ne.symm same)]
          exact clear j (by omega)
    · obtain rfl : i = size.toNat := by omega
      rw [if_neg inside, eq_replicate_none length clear]

/-- For a larger size the index overflows before the loop ends. -/
theorem initLoop_overflows {size : BitVec 32} (large : 2 ^ 31 ≤ size.toNat) (rounds i : Nat)
    (buckets : List (Option HashNode)) (within : i ≤ HashTable.intMax) :
    HashTable.initLoop size rounds i buckets =
      .error (if HashTable.intMax < i + rounds then .fault else .looping) := by
  induction rounds generalizing i buckets with
  | zero =>
    rw [HashTable.initLoop, if_neg (by omega)]
  | succ rounds ih =>
    have inside : i < size.toNat := by
      unfold HashTable.intMax at within
      omega
    rw [HashTable.initLoop, if_pos inside]
    by_cases counts : i < HashTable.intMax
    · rw [if_pos counts, ih (i + 1) _ counts]
      congr 2
      apply propext
      constructor <;> intro _ <;> omega
    · rw [if_neg counts, if_pos (by omega)]

omit [Key K] in
/-- `hashTable_init` gives an empty table for sizes below 2^31. -/
theorem init_empty {size : BitVec 32} (small : size.toNat < 2 ^ 31) {rounds : Nat}
    (turns : size.toNat < rounds) (hashfun : K → Nat → Int) (hashcmp : K → α → Int)
    (memory : Nat → Option HashNode) : HashTable.init rounds size hashfun hashcmp memory =
      .ok (HashTable.empty size hashfun hashcmp) := by
  have cleared := initLoop_clears small rounds 0 ((List.range size.toNat).map memory)
    (Nat.zero_le _) (by omega) (by simp) (by simp)
  rw [HashTable.init, cleared]
  rfl

omit [Key K] in
/-- It gives none for the others. -/
theorem init_overflows {size : BitVec 32} (large : 2 ^ 31 ≤ size.toNat) (rounds : Nat)
    (hashfun : K → Nat → Int) (hashcmp : K → α → Int) (memory : Nat → Option HashNode) :
    HashTable.init rounds size hashfun hashcmp memory =
      .error (if HashTable.intMax < rounds then .fault else .looping) := by
  have overflows := initLoop_overflows large rounds 0 ((List.range size.toNat).map memory)
    (Nat.zero_le _)
  rw [Nat.zero_add] at overflows
  rw [HashTable.init, overflows]
  rfl

/-! ## The entries of a table -/

/-- A bucket holds the cells of its list, a bucket that is `NULL` none. -/
def Holds (m : Nodes α) (bucket : Option HashNode) (cells : Cells α) : Prop :=
  match bucket with
  | none => cells = []
  | some ⟨some list⟩ => Linked m list cells
  | some ⟨none⟩ => False

/-- Two tables differ in their buckets only. -/
structure Alike (table table' : HashTable K α) : Prop where
  /-- The same comparison. -/
  hashcmp : table'.hashcmp = table.hashcmp
  /-- The same indices. -/
  index : table'.index = table.index

/-- The table holds the entries, each bucket those of its index in its cells. -/
structure Bucketed (m : Nodes α) (table : HashTable K α) (entries : List (K × α))
    (cells : BitVec 32 → Cells α) : Prop where
  /-- There are buckets. -/
  positive : 0 < table.hashsize
  /-- They are allocated. -/
  length : table.buckets.length = table.hashsize.toNat
  /-- Keys that compare equal to the data of an entry have its index. -/
  consistent : ∀ e ∈ entries, ∀ key, table.hashcmp key e.2 = 0 → table.index key = table.index e.1
  /-- Every bucket holds its cells. -/
  holds : ∀ i < table.hashsize, ∃ bucket, table.bucket i = .ok bucket ∧ Holds m bucket (cells i)
  /-- The cells have the entries of the bucket. -/
  sorted : ∀ i, (cells i).data = (classOf (fun e => table.index e.1) i entries).map Prod.snd
  /-- Different buckets have different cells. -/
  apart : ∀ i j, i ≠ j → ∀ a ∈ (cells i).addrs, a ∉ (cells j).addrs

variable {m m' : Nodes α} {table table' : HashTable K α} {entries entries' : List (K × α)}
  {cells : BitVec 32 → Cells α} {fuel : Nat}

/-- Two changes of buckets only. -/
theorem Alike.trans {table'' : HashTable K α} (first : Alike table table')
    (second : Alike table' table'') : Alike table table'' :=
  ⟨second.hashcmp.trans first.hashcmp, second.index.trans first.index⟩

/-- An index is in range. -/
theorem Bucketed.index_lt (bucketed : Bucketed m table entries cells) (key : K) :
    table.index key < table.hashsize :=
  BitVec.umod_lt _ bucketed.positive

/-- No cells are beyond the last bucket. -/
theorem Bucketed.outside (bucketed : Bucketed m table entries cells) {i : BitVec 32}
    (beyond : ¬ i < table.hashsize) : cells i = [] := by
  have nobody : classOf (fun e => table.index e.1) i entries = [] := by
    refine List.filter_eq_nil_iff.mpr fun e _ same => beyond ?_
    have equal : table.index e.1 = i := of_decide_eq_true same
    exact equal ▸ bucketed.index_lt e.1
  have none_left := bucketed.sorted i
  rw [nobody] at none_left
  exact List.map_eq_nil_iff.mp none_left

/-- An address not in use is nobody's. -/
theorem Bucketed.fresh (bucketed : Bucketed m table entries cells) {a : Nat} (free : m a = none)
    (i : BitVec 32) : a ∉ (cells i).addrs := by
  intro member
  by_cases within : i < table.hashsize
  · obtain ⟨bucket, _, holds⟩ := bucketed.holds i within
    match bucket with
    | none =>
      have empty : cells i = [] := holds
      rw [empty] at member
      exact List.not_mem_nil member
    | some ⟨some list⟩ =>
      have allocated := (Linked.chain holds).allocated member
      rw [free] at allocated
      exact Bool.false_ne_true allocated
    | some ⟨none⟩ => exact holds
  · rw [bucketed.outside within] at member
    exact List.not_mem_nil member

/-- A new table has no entries. -/
theorem bucketed_empty (m : Nodes α) {size : BitVec 32} (positive : 0 < size)
    (hashfun : K → Nat → Int) (hashcmp : K → α → Int) :
    Bucketed m (HashTable.empty size hashfun hashcmp) [] fun _ => [] := by
  refine ⟨positive, by simp [HashTable.empty], by simp, fun i inside => ⟨none, ?_, rfl⟩,
    fun _ => rfl, by simp⟩
  have inside' : i.toNat < size.toNat := inside
  simp [HashTable.bucket, HashTable.empty, inside']

/-- A bucket that is changed holds its new cells, and the others hold theirs. -/
theorem Bucketed.set (bucketed : Bucketed m table entries cells) {i : BitVec 32}
    (inside : i < table.hashsize) {list : DataList} {more : Cells α} {own : List Nat}
    (linked : Linked m' list more) (agree : Nodes.Agree own m m')
    (within : ∀ a ∈ addrs more, a ∈ own)
    (away : ∀ j, j ≠ i → ∀ a ∈ (cells j).addrs, a ∉ own)
    (consistent : ∀ e ∈ entries', ∀ key, table.hashcmp key e.2 = 0 →
      table.index key = table.index e.1)
    (here : data more = (classOf (fun e => table.index e.1) i entries').map Prod.snd)
    (there : ∀ j, j ≠ i → classOf (fun e => table.index e.1) j entries' =
      classOf (fun e => table.index e.1) j entries) :
    ∃ table', table.setBucket i (some ⟨some list⟩) = .ok table' ∧
      table'.bucket i = .ok (some ⟨some list⟩) ∧ Alike table table' ∧
      Bucketed m' table' entries' (Function.update cells i more) := by
  have bound : i.toNat < table.buckets.length := by
    rw [bucketed.length]
    exact inside
  refine ⟨{ table with buckets := table.buckets.set i.toNat (some ⟨some list⟩) },
    by rw [HashTable.setBucket, if_pos bound], by simp [HashTable.bucket, bound], ⟨rfl, rfl⟩,
    ⟨bucketed.positive, ?_, consistent, fun j inside' => ?_, fun j => ?_, fun j k distinct a => ?_⟩⟩
  · rw [List.length_set]
    exact bucketed.length
  · by_cases same : j = i
    · subst same
      refine ⟨some ⟨some list⟩, ?_, ?_⟩
      · simp [HashTable.bucket, bound]
      · rw [Function.update_self]
        exact linked
    · have places : i.toNat ≠ j.toNat := fun equal => same (BitVec.eq_of_toNat_eq equal.symm)
      obtain ⟨bucket, found, holds⟩ := bucketed.holds j inside'
      refine ⟨bucket, ?_, ?_⟩
      · rw [HashTable.bucket, List.getElem?_set_ne places]
        exact found
      · rw [Function.update_of_ne same]
        match bucket with
        | none => exact holds
        | some ⟨some _⟩ => exact Linked.apart holds agree (away j same)
        | some ⟨none⟩ => exact holds
  · by_cases same : j = i
    · subst same
      rw [Function.update_self]
      exact here
    · rw [Function.update_of_ne same]
      exact (bucketed.sorted j).trans (congrArg _ (there j same).symm)
  · by_cases first : j = i
    · subst first
      rw [Function.update_self, Function.update_of_ne distinct.symm]
      exact fun member other => away k distinct.symm a other (within a member)
    · by_cases second : k = i
      · subst second
        rw [Function.update_self, Function.update_of_ne first]
        exact fun member other => away j first a member (within a other)
      · rw [Function.update_of_ne first, Function.update_of_ne second]
        exact bucketed.apart j k distinct a

/-! ## Pushing -/

/-- `hashTable_push` into a bucket that is not `NULL` adds an entry. -/
theorem pushIn_bucketed (bucketed : Bucketed m table entries cells) {key : K} {data : α}
    {hashnode : HashNode} (found : table.bucket (table.index key) = .ok (some hashnode))
    {a : Nat} (free : m a = none)
    (fits : ∀ key', table.hashcmp key' data = 0 → table.index key' = table.index key) :
    ∃ table' m' cells', table.pushIn m (table.index key) data (some a) = .ok (table', m') ∧
      Alike table table' ∧
      Bucketed m' table' (entries ++ [(key, data)]) cells' := by
  have inside := bucketed.index_lt key
  obtain ⟨bucket, found', holds⟩ := bucketed.holds _ inside
  obtain rfl : bucket = some hashnode := Except.ok.inj (found'.symm.trans found)
  obtain ⟨_ | list⟩ := hashnode
  · exact holds.elim
  have linked : Linked m list (cells (table.index key)) := holds
  obtain ⟨list', m', added, linked', agree⟩ := addtail_linked linked free data
  have away : ∀ j, j ≠ table.index key → ∀ b ∈ (cells j).addrs,
      b ∉ addrs (cells (table.index key) ++ [(a, data)]) := by
    intro j other b member own
    rw [addrs_append, List.mem_append] at own
    rcases own with own | own
    · exact bucketed.apart j _ other b member own
    · obtain rfl : b = a := by simpa using own
      exact bucketed.fresh free j member
  have consistent : ∀ e ∈ entries ++ [(key, data)], ∀ key', table.hashcmp key' e.2 = 0 →
      table.index key' = table.index e.1 := by
    intro e member key' equal
    rcases List.mem_append.mp member with old | new
    · exact bucketed.consistent e old key' equal
    · obtain rfl : e = (key, data) := by simpa using new
      exact fits key' equal
  have appended : classOf (fun e => table.index e.1) (table.index key) (entries ++ [(key, data)]) =
      classOf (fun e => table.index e.1) (table.index key) entries ++ [(key, data)] :=
    classOf_append_same rfl
  have here : Cells.data (cells (table.index key) ++ [(a, data)]) =
      (classOf (fun e => table.index e.1) (table.index key) (entries ++ [(key, data)])).map
        Prod.snd := by
    rw [data_append, bucketed.sorted, appended, List.map_append]
    rfl
  obtain ⟨table', written, _, alike, bucketed'⟩ :=
    bucketed.set inside linked' agree (fun _ member => member) away consistent here
      fun j other => classOf_append_other other.symm
  refine ⟨table', m', _, ?_, alike, bucketed'⟩
  simp only [HashTable.pushIn, found, added, Exec.bind_ok, written]

/-- `hashTable_push` adds an entry. -/
theorem push_bucketed (bucketed : Bucketed m table entries cells) {key : K} {data : α}
    {a : Nat} (free : m a = none)
    (fits : ∀ key', table.hashcmp key' data = 0 → table.index key' = table.index key) :
    ∃ table' m' cells', table.push m key data ⟨true, true, some a⟩ = .ok (table', m') ∧
      Alike table table' ∧
      Bucketed m' table' (entries ++ [(key, data)]) cells' := by
  have inside := bucketed.index_lt key
  obtain ⟨bucket, found, holds⟩ := bucketed.holds _ inside
  cases bucket with
  | some hashnode =>
    obtain ⟨table', m', cells', pushed, rest⟩ := pushIn_bucketed bucketed found free fits
    refine ⟨table', m', cells', ?_, rest⟩
    simp only [HashTable.push, found, Exec.bind_ok, pushed]
  | none =>
    have empty : cells (table.index key) = [] := holds
    obtain ⟨table₁, written, fresh, alike, bucketed₁⟩ :=
      bucketed.set inside (linked_create m) (Nodes.Agree.refl [] m) (fun _ member => member)
        (fun _ _ _ _ => List.not_mem_nil) bucketed.consistent
        (by rw [← bucketed.sorted, empty]) (fun _ _ => rfl)
    rw [← alike.index] at fresh
    have fits₁ : ∀ key', table₁.hashcmp key' data = 0 → table₁.index key' = table₁.index key := by
      rw [alike.hashcmp, alike.index]
      exact fits
    obtain ⟨table', m', cells', pushed, alike', bucketed'⟩ :=
      pushIn_bucketed bucketed₁ fresh free fits₁
    refine ⟨table', m', cells', ?_, alike.trans alike', bucketed'⟩
    rw [alike.index] at pushed
    simp only [HashTable.push, found, Exec.bind_ok, hashNodeCreate, if_true, written, pushed]

/-! ## Finding -/

/-- Only entries of a key's index compare equal to it. -/
theorem Bucketed.within (bucketed : Bucketed m table entries cells) (key : K) :
    Within (fun e : K × α => table.index e.1) (table.index key)
      (fun e => table.hashcmp key e.2 = 0) entries :=
  fun e member equal => (bucketed.consistent e member key (of_decide_eq_true equal)).symm

/-- The first cell of a key's bucket that compares equal to it has the data of the earliest entry
that does. -/
theorem Bucketed.lookup (bucketed : Bucketed m table entries cells) (key : K) :
    ((cells (table.index key)).find? fun c => table.hashcmp key c.2 = 0).map Prod.snd =
      lookup table.hashcmp entries key := by
  have inBucket := find?_classOf (bucketed.within key)
  have sameData := congrArg (List.find? fun d => table.hashcmp key d = 0)
    (bucketed.sorted (table.index key))
  rw [Cells.data, List.find?_map, List.find?_map] at sameData
  rw [EpollNet.lookup, ← inBucket]
  exact sameData

/-- A bucket with its first equal cell, or without one, and what `DataList_Find` says of it. -/
theorem Bucketed.find (bucketed : Bucketed m table entries cells) (key : K)
    (enough : entries.length < fuel) :
    ∃ bucket, table.bucket (table.index key) = .ok bucket ∧
      Holds m bucket (cells (table.index key)) ∧
      ∀ hashnode, bucket = some hashnode → table.findIn m fuel hashnode key = .ok
        (((cells (table.index key)).find? fun c => table.hashcmp key c.2 = 0).map Prod.fst) := by
  obtain ⟨bucket, found, holds⟩ := bucketed.holds _ (bucketed.index_lt key)
  refine ⟨bucket, found, holds, fun hashnode same => ?_⟩
  subst same
  obtain ⟨_ | list⟩ := hashnode
  · exact holds.elim
  have linked : Linked m list (cells (table.index key)) := holds
  have short : (cells (table.index key)).length < fuel := by
    have lengths := congrArg List.length (bucketed.sorted (table.index key))
    rw [Cells.data, List.length_map, List.length_map] at lengths
    exact lengths ▸ (List.length_filter_le _ _).trans_lt enough
  show list.find m fuel (table.hashcmp key) = _
  rw [DataList.find, linked.head]
  exact findLoop_chain linked.chain _ short

/-- `hashTable_pop` returns the data of the earliest entry that compares equal to the key. -/
theorem pop_bucketed (bucketed : Bucketed m table entries cells) (key : K)
    (enough : entries.length < fuel) :
    table.pop m fuel key = .ok (lookup table.hashcmp entries key) := by
  obtain ⟨bucket, found, holds, search⟩ := bucketed.find key enough
  rw [← bucketed.lookup key]
  cases bucket with
  | none =>
    have empty : cells (table.index key) = [] := holds
    simp only [HashTable.pop, found, Exec.bind_ok, empty]
    rfl
  | some hashnode =>
    simp only [HashTable.pop, found, Exec.bind_ok, search hashnode rfl]
    obtain ⟨_ | list⟩ := hashnode
    · exact holds.elim
    have linked : Linked m list (cells (table.index key)) := holds
    cases first : (cells (table.index key)).find? fun c => table.hashcmp key c.2 = 0 with
    | none => rfl
    | some c =>
      obtain ⟨_, before, behind, split, _⟩ := List.find?_eq_some_iff_append.mp first
      have chain := linked.chain
      rw [split] at chain
      have here := (chain_append.mp chain).2.1
      simp only [Option.map_some, DataList.getCurrentData, Nodes.load_some here, Exec.bind_ok]

/-! ## Removing -/

/-- `hashTable_remove` takes the earliest entry out that compares equal to the key. -/
theorem remove_bucketed (bucketed : Bucketed m table entries cells) (key : K)
    (enough : entries.length < fuel) :
    ∃ table' m' cells', table.remove m fuel key =
        .ok (lookup table.hashcmp entries key, table', m') ∧ Alike table table' ∧
      Bucketed m' table' (entries.eraseP fun e => table.hashcmp key e.2 = 0) cells' := by
  obtain ⟨bucket, found, holds, search⟩ := bucketed.find key enough
  have looked := bucketed.lookup key
  cases first : (cells (table.index key)).find? fun c => table.hashcmp key c.2 = 0 with
  | none =>
    rw [first] at looked
    have nobody : entries.eraseP (fun e => table.hashcmp key e.2 = 0) = entries := by
      have missing := Option.map_eq_none_iff.mp looked.symm
      exact List.eraseP_of_forall_not (List.find?_eq_none.mp missing)
    rw [nobody, ← looked]
    refine ⟨table, m, cells, ?_, ⟨rfl, rfl⟩, bucketed⟩
    cases bucket with
    | none => simp only [HashTable.remove, found, Exec.bind_ok, Option.map_none]
    | some hashnode =>
      simp only [HashTable.remove, found, Exec.bind_ok, search hashnode rfl, first,
        Option.map_none]
  | some c =>
    obtain ⟨a, d⟩ := c
    obtain ⟨equal, before, behind, split, earlier⟩ := List.find?_eq_some_iff_append.mp first
    cases bucket with
    | none =>
      have empty : cells (table.index key) = [] := holds
      rw [empty] at split
      exact absurd split.symm (by simp)
    | some hashnode =>
      obtain ⟨_ | list⟩ := hashnode
      · exact holds.elim
      have linked : Linked m list (cells (table.index key)) := holds
      rw [split] at linked
      obtain ⟨list', m', removed, linked', agree⟩ := removenode_linked linked
      rw [← split] at agree
      -- the cells that are left are the old ones without the first equal cell
      have left : before ++ behind = (cells (table.index key)).eraseP
          fun c => table.hashcmp key c.2 = 0 := by
        have unequal : ∀ c ∈ before, ¬ decide (table.hashcmp key c.2 = 0) = true :=
          fun c member => by simpa using earlier c member
        rw [split, List.eraseP_append_right _ unequal]
        rw [List.eraseP_cons, equal, cond_true]
      have kept : ∀ b ∈ addrs (before ++ behind), b ∈ (cells (table.index key)).addrs := by
        rw [left]
        exact fun b member => List.map_subset _ List.eraseP_subset member
      have consistent : ∀ e ∈ entries.eraseP (fun e => table.hashcmp key e.2 = 0), ∀ key',
          table.hashcmp key' e.2 = 0 → table.index key' = table.index e.1 :=
        fun e member => bucketed.consistent e (List.mem_of_mem_eraseP member)
      have here : Cells.data (before ++ behind) =
          (classOf (fun e => table.index e.1) (table.index key)
            (entries.eraseP fun e => table.hashcmp key e.2 = 0)).map Prod.snd := by
        have sorted := congrArg (List.eraseP fun d => table.hashcmp key d = 0)
          (bucketed.sorted (table.index key))
        rw [Cells.data, List.eraseP_map, List.eraseP_map] at sorted
        rw [left, classOf_eraseP_same (bucketed.within key)]
        exact sorted
      obtain ⟨table', written, _, alike, bucketed'⟩ :=
        bucketed.set (bucketed.index_lt key) linked' agree kept
          (fun j other b member own => bucketed.apart j _ other b member own) consistent here
          fun j other => classOf_eraseP_other (bucketed.within key) other
      refine ⟨table', m', _, ?_, alike, bucketed'⟩
      rw [first] at looked
      rw [← looked]
      simp only [HashTable.remove, found, Exec.bind_ok, search _ rfl, first, Option.map_some,
        removed, written]

/-! ## Runs -/

/-- A call ends without a fault, with what the multimap makes of it. -/
theorem call_bucketed (bucketed : Bucketed m table entries cells) (enough : entries.length < fuel)
    (op : HashOp K α) (fits : table.Fits op) (granted : op.Granted (table, m)) :
    ∃ table' m' cells', HashTable.call fuel op (table, m) =
        .ok ((op.onEntries table.hashcmp entries).1, table', m') ∧ Alike table table' ∧
      Bucketed m' table' (op.onEntries table.hashcmp entries).2 cells' := by
  cases op with
  | push key data a =>
    obtain ⟨table', m', cells', pushed, rest⟩ := push_bucketed bucketed granted fits
    refine ⟨table', m', cells', ?_, rest⟩
    simp only [HashTable.call, pushed, Exec.bind_ok]
    rfl
  | pop key =>
    refine ⟨table, m, cells, ?_, ⟨rfl, rfl⟩, bucketed⟩
    simp only [HashTable.call, pop_bucketed bucketed key enough, Exec.bind_ok]
    rfl
  | remove key => exact remove_bucketed bucketed key enough

omit [Key K] in
/-- A call makes the entries more by one at most. -/
theorem length_onEntries (hashcmp : K → α → Int) (op : HashOp K α) (entries : List (K × α)) :
    (op.onEntries hashcmp entries).2.length ≤ entries.length + 1 := by
  cases op with
  | push key data a => simp [HashOp.onEntries]
  | pop key => exact Nat.le_succ _
  | remove key => exact List.length_eraseP_le.trans (Nat.le_succ _)

/-- A table like the first stands for the entries, with rounds enough for its loops in so many more
calls. -/
def TableStands (first : HashTable K α) (fuel more : Nat) (object : HashTable K α × Nodes α)
    (entries : List (K × α)) : Prop :=
  Alike first object.1 ∧ entries.length + more < fuel ∧
    ∃ cells, Bucketed object.2 object.1 entries cells

/-- A call on the table is a call on the multimap. -/
theorem HashTable.call_stands (first : HashTable K α) (more : Nat) (op : HashOp K α)
    (object : HashTable K α × Nodes α) (entries : List (K × α))
    (stands : TableStands first fuel (more + 1) object entries)
    (may : first.Fits op ∧ op.Granted object) :
    ∃ object', HashTable.call fuel op object =
        .ok ((op.onEntries first.hashcmp entries).1, object') ∧
      TableStands first fuel more object' (op.onEntries first.hashcmp entries).2 := by
  obtain ⟨table, m⟩ := object
  obtain ⟨alike, enough, cells, bucketed⟩ := stands
  obtain ⟨fits, granted⟩ := may
  have fits' : table.Fits op := by
    cases op with
    | push key data a =>
      intro key' equal
      rw [alike.hashcmp] at equal
      rw [alike.index]
      exact fits key' equal
    | _ => trivial
  have room : entries.length < fuel := by omega
  obtain ⟨table', m', cells', called, alike', bucketed'⟩ :=
    call_bucketed bucketed room op fits' granted
  have longer := length_onEntries first.hashcmp op entries
  rw [alike.hashcmp] at called bucketed'
  exact ⟨(table', m'), called, alike.trans alike', by omega, cells', bucketed'⟩

/-- `hashTable_init` makes a table of any size below 2^31, whatever the memory it gets holds, and
any calls on it end without a fault, return what the multimap returns and leave every index in
range. Rounds of a loop that exceed the calls in number are enough for it to end. -/
theorem table_refines_multimap (size : BitVec 32) (positive : 0 < size)
    (small : size.toNat < 2 ^ 31) (hashfun : K → Nat → Int) (hashcmp : K → α → Int)
    (memory : Nat → Option HashNode) (rounds : Nat) (turns : size.toNat < rounds) :
    ∃ new, HashTable.init rounds size hashfun hashcmp memory = .ok new ∧
      ∀ (m : Nodes α) (ops : List (HashOp K α)) (fuel : Nat), ops.length < fuel →
        (∀ op ∈ ops, new.Fits op) →
        Permitted (HashTable.call fuel) HashOp.Granted ops (new, m) →
        ∃ table m', calls (HashTable.call fuel) ops (new, m) =
            .ok ((meaning (HashOp.onEntries hashcmp) ops []).1, table, m') ∧
          ∀ key, (table.index key).toNat < table.buckets.length := by
  refine ⟨HashTable.empty size hashfun hashcmp, init_empty small turns hashfun hashcmp memory, ?_⟩
  intro m ops fuel enough fits granted
  have stands : TableStands (HashTable.empty size hashfun hashcmp) fuel ops.length
      (HashTable.empty size hashfun hashcmp, m) [] :=
    ⟨⟨rfl, rfl⟩, by simpa using enough, _, bucketed_empty m positive hashfun hashcmp⟩
  obtain ⟨⟨table, m'⟩, called, _, _, cells, bucketed⟩ :=
    calls_refine (TableStands _ fuel) (HashTable.call_stands _) stands (granted.and fits)
  refine ⟨table, m', called, fun key => ?_⟩
  rw [bucketed.length]
  exact bucketed.index_lt key

namespace Sample

/-- Strings, as in C. -/
instance stringKey : Key (List UInt8) := ⟨List.length⟩

/-- Data is told by the length of its key. -/
def byLength (key : List UInt8) (data : Nat) : Int := if key.length = data then 0 else 1

/-- Two data are pushed into one bucket of two, with a negative hash; the second is removed. -/
def someHashOps : List (HashOp (List UInt8) Nat) :=
  [.push [65] 1 7, .push [65, 66, 67] 3 8, .remove [97, 98, 99], .pop [97, 98, 99], .pop [98]]

end Sample

/-- The calls of the sample are served, on a table whose memory held something. -/
theorem table_refines_multimap_sample :
    ∃ new table m', HashTable.init 3 2 (fun (_ : List UInt8) len => -len) Sample.byLength
        (fun _ => some ⟨none⟩) = .ok new ∧
      calls (HashTable.call 6) Sample.someHashOps (new, fun _ => none) =
        .ok ([none, none, some 3, none, some 1], table, m') ∧
      ∀ key, (table.index key).toNat < table.buckets.length := by
  obtain ⟨new, made, refines⟩ := table_refines_multimap 2 (by decide) (by decide)
    (fun (_ : List UInt8) len => -len) Sample.byLength (fun _ => some ⟨none⟩) 3 (by decide)
  obtain rfl : HashTable.empty 2 (fun (_ : List UInt8) len => -len) Sample.byLength = new :=
    Except.ok.inj made
  have served := refines (fun _ => none) Sample.someHashOps 6 (by decide) (fun op member => ?_) ?_
  · obtain ⟨table, m', called, inside⟩ := served
    exact ⟨_, table, m', made, called, inside⟩
  · have fits : ∀ (key : List UInt8) (data node : Nat), key.length = data → (HashTable.empty 2
        (fun _ len => -len) Sample.byLength).Fits (.push key data node) := by
      intro key data node own key' equal
      have same : key'.length = data := by
        by_contra unequal
        simp [HashTable.empty, Sample.byLength, unequal] at equal
      simp only [HashTable.index, HashTable.empty, Key.strlen, own, same]
    simp only [Sample.someHashOps, List.mem_cons, List.not_mem_nil, or_false] at member
    rcases member with rfl | rfl | rfl | rfl | rfl
    · exact fits [65] 1 7 rfl
    · exact fits [65, 66, 67] 3 8 rfl
    · trivial
    · trivial
    · trivial
  · iterate 2
      refine ⟨rfl, ?_⟩
      rintro _ _ ⟨⟩
    iterate 3
      refine ⟨trivial, ?_⟩
      rintro _ _ ⟨⟩
    trivial

/-- For 2^31 buckets `hashTable_init` makes no table, in however many rounds: its index
overflows. -/
theorem table_overflows :
    (¬∀ (size : BitVec 32) (memory : Nat → Option HashNode), 0 < size → ∃ rounds table,
      HashTable.init rounds size (fun (_ : List UInt8) len => -len) Sample.byLength memory =
        .ok table) ∧
    ∀ memory, HashTable.init (2 ^ 31) (BitVec.ofNat 32 (2 ^ 31))
      (fun (_ : List UInt8) len => -len) Sample.byLength memory = .error .fault := by
  have large : 2 ^ 31 ≤ (BitVec.ofNat 32 (2 ^ 31)).toNat := by decide
  constructor
  · intro always
    obtain ⟨rounds, table, made⟩ :=
      always (BitVec.ofNat 32 (2 ^ 31)) (fun _ => none) (by decide)
    rw [init_overflows large] at made
    cases made
  · intro memory
    rw [init_overflows large, if_pos (by decide)]

end EpollNet
