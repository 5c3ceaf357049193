import EpollNet.Basis.Loans
import EpollNet.Verif.HashTable
import EpollNet.Verif.Sequences

/-!
# Lists and tables give their nodes back

The nodes of a list are on loan from `malloc`. Every function of `list.c` takes at most the node
it is given and frees at most the ones it unlinks, so `DataList_Delete` after any calls leaves the
heap as it was before the first of them. The lists of a hash table lie apart, so `hashTable_clear`
does the same for a table, whatever its hash and its comparison are.
-/

namespace EpollNet

open EpollNet.Basis EpollNet.Basis.Cells

variable {α : Type} {m m' : Nodes α} {list list' : DataList} {cells cells' : Cells α} {fuel : Nat}

/-! ## What is freed -/

/-- A node that was given back is not allocated. -/
theorem free_ends {p : Option Nat} (freed : m.free p = .ok m') : ∃ a, p = some a ∧ m' a = none := by
  cases p with
  | none => cases freed
  | some a =>
    cases here : m a with
    | none =>
      rw [Nodes.free, here] at freed
      cases freed
    | some n =>
      rw [Nodes.free_some here] at freed
      have after : m' = Function.update m a none := (Except.ok.inj freed).symm
      exact ⟨a, rfl, by rw [after, Function.update_self]⟩

/-- `DataList_Removehead` frees the head. -/
theorem removehead_frees {a : Nat} {d : Option α} (head : list.head = some a)
    (removed : list.removehead m = .ok (d, list', m')) : m' a = none := by
  rw [DataList.removehead, head] at removed
  obtain ⟨_, _, removed⟩ := bind_ends removed
  obtain ⟨_, _, removed⟩ := bind_ends removed
  obtain ⟨_, _, removed⟩ := bind_ends removed
  obtain ⟨_, freed, removed⟩ := bind_ends removed
  cases removed
  obtain ⟨_, same, free⟩ := free_ends freed
  cases same
  exact free

/-- `DataList_Removetail` frees the tail. -/
theorem removetail_frees {a : Nat} {d : Option α} (tail : list.tail = some a)
    (removed : list.removetail m = .ok (d, list', m')) : m' a = none := by
  rw [DataList.removetail, tail] at removed
  obtain ⟨_, _, removed⟩ := bind_ends removed
  obtain ⟨_, _, removed⟩ := bind_ends removed
  obtain ⟨_, _, removed⟩ := bind_ends removed
  obtain ⟨_, freed, removed⟩ := bind_ends removed
  cases removed
  obtain ⟨_, same, free⟩ := free_ends freed
  cases same
  exact free

/-- `DataList_Removenode` frees the node. -/
theorem removenode_frees {a : Nat} {d : Option α}
    (removed : list.removenode m (some a) = .ok (d, list', m')) : m' a = none := by
  rw [DataList.removenode] at removed
  split at removed
  · rename_i head
    exact removehead_frees head.symm removed
  · split at removed
    · rename_i tail
      exact removetail_frees tail.symm removed
    · iterate 5 obtain ⟨_, _, removed⟩ := bind_ends removed
      obtain ⟨_, freed, removed⟩ := bind_ends removed
      cases removed
      obtain ⟨_, same, free⟩ := free_ends freed
      cases same
      exact free

/-! ## Lists -/

/-- The nodes of the cells are in use. -/
def InUse (cells : Cells α) (a : Nat) : Prop := a ∈ cells.addrs

/-- A step that frees one node and leaves the others. -/
theorem turnover_remove {a : Nat} {d : α} {before behind : Cells α}
    (agree : Nodes.Agree (addrs (before ++ (a, d) :: behind)) m m') (freed : m' a = none) :
    Turnover m m' (InUse (before ++ (a, d) :: behind)) (InUse (before ++ behind)) := by
  constructor
  · exact fun b unused _ => agree b unused
  · intro b used unused
    refine absurd ?_ unused
    rw [InUse, addrs_append, List.mem_append] at used ⊢
    exact used.imp_right (List.mem_cons_of_mem a)
  · intro b used unused
    rw [InUse, addrs_append, List.mem_append] at used unused
    rw [not_or] at unused
    rcases used with used | used
    · exact absurd used unused.1
    · rcases List.mem_cons.mp used with same | used
      · rw [same]
        exact freed
      · exact absurd used unused.2

/-- A step that takes a free node. -/
theorem turnover_add {a : Nat} {d : α} (free : m a = none)
    (agree : Nodes.Agree (addrs (cells ++ [(a, d)])) m m') :
    Turnover m m' (InUse cells) (InUse (cells ++ [(a, d)])) := by
  constructor
  · exact fun b _ unused => agree b unused
  · intro b used unused
    rw [InUse, addrs_append, List.mem_append] at used
    rcases used with used | used
    · exact absurd used unused
    · obtain rfl : b = a := by simpa using used
      exact free
  · intro b used unused
    refine absurd ?_ unused
    rw [InUse, addrs_append, List.mem_append]
    exact .inl used

/-- `DataList_Clear` frees every node. -/
theorem clear_frees (linked : Linked m list cells) (enough : cells.length < fuel) :
    ∃ list' m', DataList.clear fuel list m = .ok (list', m') ∧ Linked m' list' [] ∧
      Turnover m m' (InUse cells) (InUse ([] : Cells α)) := by
  induction cells using List.reverseRecOn generalizing m list fuel with
  | nil =>
    obtain ⟨fuel, rfl⟩ := Nat.exists_eq_succ_of_ne_zero (Nat.ne_of_gt enough)
    have head := linked.head
    rw [first_nil] at head
    refine ⟨list, m, ?_, linked, Turnover.refl m _⟩
    simp only [DataList.clear, head]
  | append_singleton rest c ih =>
    obtain ⟨t, d⟩ := c
    rw [List.length_append] at enough
    obtain ⟨fuel, rfl⟩ := Nat.exists_eq_succ_of_ne_zero (Nat.ne_of_gt (Nat.zero_lt_of_lt enough))
    obtain ⟨list₁, m₁, removed, left, agree⟩ := removetail_append linked
    have tail : list.tail = some t := by
      rw [linked.tail, last_append, last_cons, last_nil]
    have freed := removetail_frees tail removed
    have first_step : Turnover m m₁ (InUse (rest ++ [(t, d)])) (InUse rest) := by
      have turnover := turnover_remove agree freed
      rw [List.append_nil] at turnover
      exact turnover
    obtain ⟨list', m', cleared, empty, later⟩ := ih left (Nat.lt_of_succ_lt_succ enough)
    refine ⟨list', m', ?_, empty, first_step.trans later⟩
    have head : list.head ≠ none := by
      rw [linked.head, first_append]
      cases rest with
      | nil => exact Option.some_ne_none t
      | cons c rest => exact Option.some_ne_none c.1
    obtain ⟨h, found⟩ := Option.ne_none_iff_exists'.mp head
    simp only [DataList.clear, found]
    rw [removed, Exec.bind_ok, cleared]

/-- `DataList_Delete` frees every node. -/
theorem delete_frees (linked : Linked m list cells) (enough : cells.length < fuel) :
    ∃ m', DataList.delete fuel (some list) m = .ok m' ∧
      Turnover m m' (InUse cells) (InUse ([] : Cells α)) := by
  obtain ⟨list', m', cleared, _, turnover⟩ := clear_frees linked enough
  refine ⟨m', ?_, turnover⟩
  rw [DataList.delete, cleared, Exec.bind_ok]

/-- A call takes and frees nodes of the list only. -/
theorem call_turnover (linked : Linked m list cells) (enough : cells.length < fuel)
    (op : ListOp α) (granted : op.Granted (list, m)) :
    ∃ result list' m' cells', DataList.call fuel op (list, m) = .ok (result, list', m') ∧
      Linked m' list' cells' ∧ cells'.length ≤ cells.length + 1 ∧
      Turnover m m' (InUse cells) (InUse cells') := by
  cases op with
  | addtail node data =>
    obtain ⟨list', m', added, left, agree⟩ := addtail_linked linked granted data
    refine ⟨none, list', m', _, ?_, left, by simp, turnover_add granted agree⟩
    rw [DataList.call, added, Exec.bind_ok]
  | removehead =>
    cases cells with
    | nil => exact ⟨none, list, m, [], removehead_nil linked, linked, by simp, Turnover.refl m _⟩
    | cons c rest =>
      obtain ⟨h, d⟩ := c
      obtain ⟨list', m', removed, left, agree⟩ := removehead_cons linked
      have freed := removehead_frees linked.head removed
      have turnover : Turnover m m' (InUse ([] ++ (h, d) :: rest)) (InUse ([] ++ rest)) :=
        turnover_remove agree freed
      refine ⟨_, list', m', rest, removed, left, ?_, turnover⟩
      rw [List.length_cons]
      omega
  | removetail =>
    rcases List.eq_nil_or_concat' cells with rfl | ⟨rest, ⟨t, d⟩, rfl⟩
    · exact ⟨none, list, m, [], removetail_nil linked, linked, by simp, Turnover.refl m _⟩
    · obtain ⟨list', m', removed, left, agree⟩ := removetail_append linked
      have tail : list.tail = some t := by
        rw [linked.tail, last_append, last_cons, last_nil]
      have turnover := turnover_remove agree (removetail_frees tail removed)
      rw [List.append_nil] at turnover
      refine ⟨_, list', m', rest, removed, left, ?_, turnover⟩
      rw [List.length_append]
      omega
  | removenode pick =>
    have obtained := obtain_linked linked enough pick
    generalize pick.place cells.data = i at obtained
    by_cases inside : i < cells.length
    · have split : cells = cells.take i ++ cells[i] :: cells.drop (i + 1) := by simp
      rw [List.getElem?_eq_getElem inside] at obtained
      generalize cells[i] = c at split obtained
      obtain ⟨a, d⟩ := c
      generalize cells.take i = before at split
      generalize cells.drop (i + 1) = behind at split
      subst split
      obtain ⟨list', m', removed, left, agree⟩ := removenode_linked linked
      have turnover := turnover_remove agree (removenode_frees removed)
      refine ⟨some d, list', m', _, ?_, left, ?_, turnover⟩
      · rw [DataList.call, obtained, Exec.bind_ok]
        exact removed
      · rw [List.length_append, List.length_append, List.length_cons]
        omega
    · rw [List.getElem?_eq_none (by omega)] at obtained
      refine ⟨none, list, m, cells, ?_, linked, by omega, Turnover.refl m _⟩
      rw [DataList.call, obtained, Exec.bind_ok]
      rfl
  | clear =>
    obtain ⟨list', m', cleared, left, turnover⟩ := clear_frees linked enough
    refine ⟨none, list', m', [], ?_, left, by simp, turnover⟩
    rw [DataList.call, cleared, Exec.bind_ok]

/-- What the list uses is on loan since the heap was `m₀`, with rounds enough for its loops in so
many more calls. -/
def Borrows (m₀ : Nodes α) (fuel more : Nat) (object : DataList × Nodes α) : Prop :=
  ∃ cells : Cells α, Linked object.2 object.1 cells ∧ cells.length + more < fuel ∧
    Loan m₀ object.2 (InUse cells)

/-- No cells, no nodes. -/
theorem inUse_nil (a : Nat) : ¬InUse ([] : Cells α) a := List.not_mem_nil

/-- A new list uses nothing. -/
theorem borrows_create (m : Nodes α) {more : Nat} (enough : more < fuel) :
    Borrows m fuel more (DataList.create, m) :=
  ⟨[], linked_create m, by simpa using enough, Loan.start m inUse_nil⟩

/-- `DataList_Delete` returns the loan. -/
theorem delete_returns {m₀ : Nodes α} {more : Nat} (borrows : Borrows m₀ fuel more (list, m)) :
    DataList.delete fuel (some list) m = .ok m₀ := by
  obtain ⟨cells, linked, room, loan⟩ := borrows
  have enough : cells.length < fuel := by omega
  obtain ⟨m', deleted, turnover⟩ := delete_frees linked enough
  have back : m' = m₀ := (loan.step turnover).returned inUse_nil
  rw [deleted, back]

/-- A call keeps the loan. -/
theorem call_borrows (m₀ : Nodes α) (more : Nat) (op : ListOp α) (object : DataList × Nodes α)
    (borrows : Borrows m₀ fuel (more + 1) object) (granted : op.Granted object) :
    ∃ result object', DataList.call fuel op object = .ok (result, object') ∧
      Borrows m₀ fuel more object' := by
  obtain ⟨list, m⟩ := object
  obtain ⟨cells, linked, room, loan⟩ := borrows
  have enough : cells.length < fuel := by omega
  obtain ⟨result, list', m', cells', called, linked', longer, turnover⟩ :=
    call_turnover linked enough op granted
  exact ⟨result, (list', m'), called, cells', linked', by omega, loan.step turnover⟩

/-- Any calls on a new list, and `DataList_Delete` after them, end without a fault and leave the
heap as it was: every node that `malloc` gave was freed once, and no other one was touched. -/
theorem list_returned (m : Nodes α) (ops : List (ListOp α)) (enough : ops.length < fuel)
    (granted : Permitted (DataList.call fuel) ListOp.Granted ops (DataList.create, m)) :
    ∃ results list m', calls (DataList.call fuel) ops (DataList.create, m) =
        .ok (results, list, m') ∧ DataList.delete fuel (some list) m' = .ok m := by
  have start : Borrows m fuel ops.length (DataList.create, m) := borrows_create m enough
  obtain ⟨results, ⟨list, m'⟩, called, borrows⟩ :=
    calls_keep (Borrows m fuel) (call_borrows m) start granted
  exact ⟨results, list, m', called, delete_returns borrows⟩

/-- The nodes of the sample are returned. -/
theorem list_returned_sample :
    ∃ results list m', calls (DataList.call 6) Sample.someListOps (DataList.create, fun _ => none) =
        .ok (results, list, m') ∧ DataList.delete 6 (some list) m' = .ok fun _ => none := by
  refine list_returned (fun _ => none) Sample.someListOps (by decide) ?_
  -- three addresses not in use, and two calls that need none
  iterate 3
    refine ⟨rfl, ?_⟩
    rintro _ _ ⟨⟩
  iterate 2
    refine ⟨trivial, ?_⟩
    rintro _ _ ⟨⟩
  trivial

/-! ## Queues -/

/-- A call on a queue keeps the loan. -/
theorem queue_borrows (m₀ : Nodes α) (more : Nat) (op : QueueOp α) (object : DataQueue × Nodes α)
    (borrows : Borrows m₀ fuel (more + 1) (object.1.list, object.2))
    (granted : op.Granted object) :
    ∃ result object', DataQueue.call op object = .ok (result, object') ∧
      Borrows m₀ fuel more (object'.1.list, object'.2) := by
  obtain ⟨queue, m⟩ := object
  have granted' : op.onList.Granted (queue.list, m) := by
    cases op with
    | push node data => exact granted
    | pop => trivial
  obtain ⟨result, ⟨list', m'⟩, called, borrows'⟩ :=
    call_borrows m₀ more op.onList (queue.list, m) borrows granted'
  exact ⟨result, (⟨list'⟩, m'), DataQueue.call_eq op called, borrows'⟩

/-- Any calls on a new queue, and `dataQueue_clear` after them, do the same. -/
theorem queue_returned (m : Nodes α) (ops : List (QueueOp α)) (enough : ops.length < fuel)
    (granted : Permitted DataQueue.call QueueOp.Granted ops (DataQueue.init, m)) :
    ∃ results queue m', calls DataQueue.call ops (DataQueue.init, m) =
        .ok (results, queue, m') ∧ DataQueue.clear fuel (some queue) m' = .ok m := by
  have start : Borrows m fuel ops.length (DataList.create, m) := borrows_create m enough
  obtain ⟨results, ⟨queue, m'⟩, called, borrows⟩ :=
    calls_keep (fun more object => Borrows m fuel more (object.1.list, object.2))
      (queue_borrows m) start granted
  exact ⟨results, queue, m', called, delete_returns borrows⟩

/-! ## Tables -/

variable {K : Type} {table table' : HashTable K α} {houses houses' : BitVec 32 → Cells α}

/-- The lists of the buckets consist of the cells, whatever they are found by. -/
structure Housed (m : Nodes α) (table : HashTable K α) (houses : BitVec 32 → Cells α) : Prop where
  /-- There are buckets. -/
  positive : 0 < table.hashsize
  /-- They are allocated. -/
  length : table.buckets.length = table.hashsize.toNat
  /-- Every bucket holds its cells. -/
  holds : ∀ i < table.hashsize, ∃ bucket, table.bucket i = .ok bucket ∧ Holds m bucket (houses i)
  /-- There are no others. -/
  beyond : ∀ i, ¬i < table.hashsize → houses i = []
  /-- Different buckets have different cells. -/
  apart : ∀ i j, i ≠ j → ∀ a, InUse (houses i) a → ¬InUse (houses j) a

/-- What a bucket uses is allocated. -/
theorem holds_allocated {bucket : Option HashNode} (holds : Holds m bucket cells) {a : Nat}
    (used : InUse cells a) : m a ≠ none := by
  match bucket with
  | none =>
    have empty : cells = [] := holds
    rw [empty] at used
    exact absurd used (inUse_nil a)
  | some ⟨some list⟩ =>
    have allocated := (Linked.chain holds).allocated used
    intro free
    rw [free] at allocated
    exact Bool.false_ne_true allocated
  | some ⟨none⟩ => exact holds.elim

/-- A bucket does not mind what happens to others. -/
theorem holds_apart {bucket : Option HashNode} {own own' : Nat → Prop}
    (holds : Holds m bucket cells) (turnover : Turnover m m' own own')
    (apart : ∀ a, InUse cells a → ¬own a) : Holds m' bucket cells := by
  have apart' : ∀ a, InUse cells a → ¬own' a := fun a used used' =>
    holds_allocated holds used (turnover.taken a used' (apart a used))
  match bucket with
  | none => exact holds
  | some ⟨some list⟩ =>
    have linked : Linked m list cells := holds
    have same : ∀ a, InUse cells a → m' a = m a := fun a used =>
      turnover.agree a (apart a used) (apart' a used)
    exact { linked with chain := linked.chain.agree same }
  | some ⟨none⟩ => exact holds

/-- An address not in use is nobody's. -/
theorem Housed.fresh (housed : Housed m table houses) {a : Nat} (free : m a = none)
    (i : BitVec 32) : ¬InUse (houses i) a := by
  by_cases within : i < table.hashsize
  · obtain ⟨bucket, _, holds⟩ := housed.holds i within
    exact fun used => holds_allocated holds used free
  · rw [housed.beyond i within]
    exact inUse_nil a

/-- A new table uses nothing. -/
theorem housed_empty (m : Nodes α) {size : BitVec 32} (positive : 0 < size)
    (hashfun : K → Nat → Int) (hashcmp : K → α → Int) :
    Housed m (HashTable.empty size hashfun hashcmp) fun _ => [] := by
  refine ⟨positive, by simp [HashTable.empty], fun i inside => ⟨none, ?_, rfl⟩, fun _ _ => rfl,
    fun _ _ _ a used => absurd used (inUse_nil a)⟩
  have inside' : i.toNat < size.toNat := inside
  simp [HashTable.bucket, HashTable.empty, inside']

/-- The nodes of all cells. -/
def Takes (houses : BitVec 32 → Cells α) (a : Nat) : Prop := ∃ i, InUse (houses i) a

variable [Key K]

/-- What a call on a table makes of it. -/
structure Resettled (m m' : Nodes α) (table table' : HashTable K α)
    (houses houses' : BitVec 32 → Cells α) : Prop where
  /-- Keys have the same indices. -/
  alike : Alike table table'
  /-- There are as many buckets. -/
  size : table'.hashsize = table.hashsize
  /-- They consist of the new cells. -/
  housed : Housed m' table' houses'
  /-- None of them has grown by more than one. -/
  longer : ∀ i, (houses' i).length ≤ (houses i).length + 1
  /-- It takes and frees nodes of the table only. -/
  turnover : Turnover m m' (Takes houses) (Takes houses')

/-- A table that is left alone. -/
theorem Housed.stays (housed : Housed m table houses) :
    Resettled m m table table houses houses :=
  ⟨⟨rfl, rfl⟩, rfl, housed, fun _ => Nat.le_succ _, Turnover.refl m _⟩

/-- A bucket is given a changed list. -/
theorem Housed.set (housed : Housed m table houses) {i : BitVec 32} (inside : i < table.hashsize)
    (linked : Linked m' list cells) (longer : cells.length ≤ (houses i).length + 1)
    (turnover : Turnover m m' (InUse (houses i)) (InUse cells)) :
    ∃ table', table.setBucket i (some ⟨some list⟩) = .ok table' ∧
      table'.bucket i = .ok (some ⟨some list⟩) ∧
      Resettled m m' table table' houses (Function.update houses i cells) := by
  have bound : i.toNat < table.buckets.length := by
    rw [housed.length]
    exact inside
  have mine : ∀ j, j ≠ i → ∀ a, InUse (houses j) a → ¬InUse cells a := by
    intro j other a used used'
    have unused : ¬InUse (houses i) a := housed.apart j i other a used
    exact housed.fresh (turnover.taken a used' unused) j used
  have same : ∀ j, j ≠ i → Function.update houses i cells j = houses j :=
    fun j other => Function.update_of_ne other _ _
  have new : Function.update houses i cells i = cells := Function.update_self ..
  have turned : Turnover m m' (Takes houses) (Takes (Function.update houses i cells)) := by
    refine Turnover.part i ?_ fun j other => congrArg InUse (same j other)
    rw [new]
    exact turnover
  refine ⟨{ table with buckets := table.buckets.set i.toNat (some ⟨some list⟩) },
    by rw [HashTable.setBucket, if_pos bound], by simp [HashTable.bucket, bound],
    ⟨⟨rfl, rfl⟩, rfl, ⟨housed.positive, ?_, fun j inside' => ?_, fun j outside => ?_,
      fun j k distinct a => ?_⟩, fun j => ?_, turned⟩⟩
  · rw [List.length_set]
    exact housed.length
  · by_cases here : j = i
    · subst here
      rw [new]
      exact ⟨some ⟨some list⟩, by simp [HashTable.bucket, bound], linked⟩
    · have places : i.toNat ≠ j.toNat := fun equal => here (BitVec.eq_of_toNat_eq equal.symm)
      obtain ⟨bucket, found, holds⟩ := housed.holds j inside'
      rw [same j here]
      refine ⟨bucket, ?_, holds_apart holds turnover (housed.apart j i here)⟩
      rw [HashTable.bucket, List.getElem?_set_ne places]
      exact found
  · have other : j ≠ i := by
      rintro rfl
      exact outside inside
    rw [same j other]
    exact housed.beyond j outside
  · by_cases here : j = i
    · subst here
      rw [new, same k distinct.symm]
      exact fun used used' => mine k distinct.symm a used' used
    · rw [same j here]
      by_cases there : k = i
      · subst there
        rw [new]
        exact mine j here a
      · rw [same k there]
        exact housed.apart j k distinct a
  · by_cases here : j = i
    · subst here
      rw [new]
      exact longer
    · rw [same j here]
      exact Nat.le_succ _

/-- One resettling after one that took and freed nothing. -/
theorem Resettled.after {table₁ : HashTable K α}
    (first : Resettled m m table table₁ houses houses) (second : Resettled m m' table₁ table' houses
      houses') : Resettled m m' table table' houses houses' :=
  ⟨first.alike.trans second.alike, second.size.trans first.size, second.housed, second.longer,
    second.turnover⟩

/-- An index is in range. -/
theorem Housed.index_lt (housed : Housed m table houses) (key : K) :
    table.index key < table.hashsize :=
  BitVec.umod_lt _ housed.positive

/-- `hashTable_push` into a bucket that is not `NULL` takes the node. -/
theorem pushIn_housed (housed : Housed m table houses) {key : K} {hashnode : HashNode}
    (found : table.bucket (table.index key) = .ok (some hashnode)) {a : Nat} (free : m a = none)
    (data : α) :
    ∃ table' m' houses', table.pushIn m (table.index key) data (some a) = .ok (table', m') ∧
      Resettled m m' table table' houses houses' := by
  have inside := housed.index_lt key
  obtain ⟨bucket, found', holds⟩ := housed.holds _ inside
  obtain rfl : bucket = some hashnode := Except.ok.inj (found'.symm.trans found)
  obtain ⟨_ | list⟩ := hashnode
  · exact holds.elim
  have linked : Linked m list (houses (table.index key)) := holds
  obtain ⟨list', m', added, linked', agree⟩ := addtail_linked linked free data
  obtain ⟨table', written, _, resettled⟩ :=
    housed.set inside linked' (by simp) (turnover_add free agree)
  refine ⟨table', m', _, ?_, resettled⟩
  simp only [HashTable.pushIn, found, added, Exec.bind_ok, written]

/-- `hashTable_push` takes the node. -/
theorem push_housed (housed : Housed m table houses) (key : K) (data : α) {a : Nat}
    (free : m a = none) :
    ∃ table' m' houses', table.push m key data ⟨true, true, some a⟩ = .ok (table', m') ∧
      Resettled m m' table table' houses houses' := by
  have inside := housed.index_lt key
  obtain ⟨bucket, found, holds⟩ := housed.holds _ inside
  cases bucket with
  | some hashnode =>
    obtain ⟨table', m', houses', pushed, resettled⟩ := pushIn_housed housed found free data
    refine ⟨table', m', houses', ?_, resettled⟩
    simp only [HashTable.push, found, Exec.bind_ok, pushed]
  | none =>
    have empty : houses (table.index key) = [] := holds
    have unchanged : Turnover m m (InUse (houses (table.index key))) (InUse ([] : Cells α)) := by
      rw [empty]
      exact Turnover.refl m _
    obtain ⟨table₁, written, fresh, first⟩ :=
      housed.set inside (linked_create m) (Nat.zero_le _) unchanged
    rw [← empty, Function.update_eq_self] at first
    rw [← first.alike.index] at fresh
    obtain ⟨table', m', houses', pushed, second⟩ := pushIn_housed first.housed fresh free data
    refine ⟨table', m', houses', ?_, first.after second⟩
    rw [first.alike.index] at pushed
    simp only [HashTable.push, found, Exec.bind_ok, hashNodeCreate, if_true, written, pushed]

/-- What `DataList_Find` says of a bucket: its first cell that compares equal. -/
theorem Housed.find (housed : Housed m table houses) (key : K)
    (enough : ∀ i, (houses i).length < fuel) :
    ∃ bucket, table.bucket (table.index key) = .ok bucket ∧
      Holds m bucket (houses (table.index key)) ∧
      ∀ hashnode, bucket = some hashnode → table.findIn m fuel hashnode key = .ok
        (((houses (table.index key)).find? fun c => table.hashcmp key c.2 = 0).map Prod.fst) := by
  obtain ⟨bucket, found, holds⟩ := housed.holds _ (housed.index_lt key)
  refine ⟨bucket, found, holds, fun hashnode same => ?_⟩
  subst same
  obtain ⟨_ | list⟩ := hashnode
  · exact holds.elim
  have linked : Linked m list (houses (table.index key)) := holds
  show list.find m fuel (table.hashcmp key) = _
  rw [DataList.find, linked.head]
  exact findLoop_chain linked.chain _ (enough _)

/-- `hashTable_pop` changes nothing. -/
theorem pop_housed (housed : Housed m table houses) (key : K)
    (enough : ∀ i, (houses i).length < fuel) : ∃ data, table.pop m fuel key = .ok data := by
  obtain ⟨bucket, found, holds, search⟩ := housed.find key enough
  cases bucket with
  | none =>
    refine ⟨none, ?_⟩
    simp only [HashTable.pop, found, Exec.bind_ok]
  | some hashnode =>
    simp only [HashTable.pop, found, Exec.bind_ok, search hashnode rfl]
    obtain ⟨_ | list⟩ := hashnode
    · exact holds.elim
    have linked : Linked m list (houses (table.index key)) := holds
    cases first : (houses (table.index key)).find? fun c => table.hashcmp key c.2 = 0 with
    | none => exact ⟨none, rfl⟩
    | some c =>
      have member : c.1 ∈ addrs (houses (table.index key)) :=
        List.mem_map_of_mem (List.mem_of_find?_eq_some first)
      have allocated := linked.chain.allocated member
      obtain ⟨n, here⟩ := Option.isSome_iff_exists.mp allocated
      refine ⟨some n.data, ?_⟩
      simp only [Option.map_some, DataList.getCurrentData, Nodes.load_some here, Exec.bind_ok]

/-- `hashTable_remove` frees the node it finds. -/
theorem remove_housed (housed : Housed m table houses) (key : K)
    (enough : ∀ i, (houses i).length < fuel) :
    ∃ data table' m' houses', table.remove m fuel key = .ok (data, table', m') ∧
      Resettled m m' table table' houses houses' := by
  obtain ⟨bucket, found, holds, search⟩ := housed.find key enough
  cases bucket with
  | none =>
    refine ⟨none, table, m, houses, ?_, housed.stays⟩
    simp only [HashTable.remove, found, Exec.bind_ok]
  | some hashnode =>
    obtain ⟨_ | list⟩ := hashnode
    · exact holds.elim
    have linked : Linked m list (houses (table.index key)) := holds
    cases first : (houses (table.index key)).find? fun c => table.hashcmp key c.2 = 0 with
    | none =>
      refine ⟨none, table, m, houses, ?_, housed.stays⟩
      simp only [HashTable.remove, found, Exec.bind_ok, search _ rfl, first, Option.map_none]
    | some c =>
      obtain ⟨a, d⟩ := c
      obtain ⟨_, before, behind, split, _⟩ := List.find?_eq_some_iff_append.mp first
      rw [split] at linked
      obtain ⟨list', m', removed, linked', agree⟩ := removenode_linked linked
      have turnover := turnover_remove agree (removenode_frees removed)
      rw [← split] at turnover
      have longer : (before ++ behind).length ≤ (houses (table.index key)).length + 1 := by
        rw [split, List.length_append, List.length_append, List.length_cons]
        omega
      obtain ⟨table', written, _, resettled⟩ :=
        housed.set (housed.index_lt key) linked' longer turnover
      refine ⟨some d, table', m', _, ?_, resettled⟩
      simp only [HashTable.remove, found, Exec.bind_ok, search _ rfl, first, Option.map_some,
        removed, written]

/-- What is on loan to a table since the heap was `m₀`. -/
def TableBorrows (m₀ : Nodes α) (size : BitVec 32) (fuel more : Nat)
    (object : HashTable K α × Nodes α) : Prop :=
  object.1.hashsize = size ∧ ∃ houses, Housed object.2 object.1 houses ∧
    (∀ i, (houses i).length + more < fuel) ∧ Loan m₀ object.2 (Takes houses)

/-- A call on a table keeps the loan. -/
theorem table_borrows (m₀ : Nodes α) (size : BitVec 32) (more : Nat) (op : HashOp K α)
    (object : HashTable K α × Nodes α) (borrows : TableBorrows m₀ size fuel (more + 1) object)
    (granted : op.Granted object) :
    ∃ result object', HashTable.call fuel op object = .ok (result, object') ∧
      TableBorrows m₀ size fuel more object' := by
  obtain ⟨table, m⟩ := object
  obtain ⟨sized, houses, housed, room, loan⟩ := borrows
  have enough : ∀ i, (houses i).length < fuel := fun i => by
    have := room i
    omega
  have kept : ∀ {table' m' houses'}, Resettled m m' table table' houses houses' →
      TableBorrows m₀ size fuel more (table', m') := by
    intro table' m' houses' resettled
    refine ⟨resettled.size.trans sized, houses', resettled.housed, fun i => ?_,
      loan.step resettled.turnover⟩
    have bound := room i
    have longer := resettled.longer i
    omega
  cases op with
  | push key data a =>
    obtain ⟨table', m', houses', pushed, resettled⟩ := push_housed housed key data granted
    refine ⟨none, (table', m'), ?_, kept resettled⟩
    rw [HashTable.call, pushed, Exec.bind_ok]
  | pop key =>
    obtain ⟨data, popped⟩ := pop_housed housed key enough
    refine ⟨data, (table, m), ?_, kept housed.stays⟩
    rw [HashTable.call, popped, Exec.bind_ok]
  | remove key =>
    obtain ⟨data, table', m', houses', removed, resettled⟩ := remove_housed housed key enough
    exact ⟨data, (table', m'), removed, kept resettled⟩

/-! ## Clearing tables -/

/-- The nodes of the buckets from one on. -/
def TakesFrom (houses : BitVec 32 → Cells α) (i a : Nat) : Prop :=
  ∃ j : BitVec 32, i ≤ j.toNat ∧ InUse (houses j) a

/-- The body of the loop of `hashTable_clear` gives back what its bucket uses. -/
theorem clearBucket_frees {bucket : Option HashNode} (holds : Holds m bucket cells)
    (enough : cells.length < fuel) :
    ∃ m', HashTable.clearBucket fuel bucket m = .ok m' ∧
      Turnover m m' (InUse cells) (InUse ([] : Cells α)) := by
  obtain _ | ⟨_ | list⟩ := bucket
  · have empty : cells = [] := holds
    rw [empty]
    exact ⟨m, rfl, Turnover.refl m _⟩
  · exact holds.elim
  · exact delete_frees holds enough

omit [Key K] in
/-- One round of the loop of `hashTable_clear` gives back what its bucket uses. -/
theorem clearLoop_round {i : Nat} (inside : i < table.hashsize.toNat)
    (small : table.hashsize.toNat < 2 ^ 31) {bucket : Option HashNode}
    (found : table.bucket (BitVec.ofNat 32 i) = .ok bucket) (holds : Holds m bucket cells)
    (enough : cells.length < fuel) (rounds : Nat) :
    ∃ m', table.clearLoop fuel (rounds + 1) i m = table.clearLoop fuel rounds (i + 1) m' ∧
      Turnover m m' (InUse cells) fun _ => False := by
  have counts : i < HashTable.intMax := by
    rw [HashTable.intMax]
    omega
  have nobody : InUse ([] : Cells α) = fun _ => False :=
    funext fun a => eq_false (inUse_nil a)
  obtain ⟨m', freed, turnover⟩ := clearBucket_frees holds enough
  refine ⟨m', ?_, nobody ▸ turnover⟩
  rw [HashTable.clearLoop, if_pos inside, found, Exec.bind_ok, freed, Exec.bind_ok, if_pos counts]

omit [Key K] in
/-- The loop of `hashTable_clear` gives back what the buckets from its index on use. -/
theorem clearLoop_frees {m₀ : Nodes α} (housed : Housed m₀ table houses)
    (enough : ∀ i, (houses i).length < fuel) (small : table.hashsize.toNat < 2 ^ 31)
    (rounds i : Nat) (within : i ≤ table.hashsize.toNat)
    (more : table.hashsize.toNat < i + rounds)
    (holds : ∀ j < table.hashsize, i ≤ j.toNat → ∃ bucket, table.bucket j = .ok bucket ∧
      Holds m bucket (houses j)) :
    ∃ m', table.clearLoop fuel rounds i m = .ok m' ∧
      Turnover m m' (TakesFrom houses i) fun _ => False := by
  induction rounds generalizing i m with
  | zero => omega
  | succ rounds ih =>
    by_cases inside : i < table.hashsize.toNat
    · have here : (BitVec.ofNat 32 i).toNat = i := by
        rw [BitVec.toNat_ofNat]
        omega
      have bucketed : BitVec.ofNat 32 i < table.hashsize := by
        rw [BitVec.lt_def, here]
        exact inside
      obtain ⟨bucket, found, held⟩ := holds _ bucketed here.ge
      obtain ⟨m₁, cleared, turnover⟩ :=
        clearLoop_round inside small found held (enough _) rounds
      have others : ∀ j : BitVec 32, i + 1 ≤ j.toNat → j ≠ BitVec.ofNat 32 i := by
        rintro j later rfl
        omega
      have holds' : ∀ j < table.hashsize, i + 1 ≤ j.toNat → ∃ bucket,
          table.bucket j = .ok bucket ∧ Holds m₁ bucket (houses j) := by
        intro j inside' later
        obtain ⟨other, found', held'⟩ := holds j inside' (by omega)
        exact ⟨other, found', holds_apart held' turnover (housed.apart j _ (others j later))⟩
      obtain ⟨m', rest, later⟩ := ih (i + 1) inside (by omega) holds'
      refine ⟨m', cleared.trans rest, ⟨fun a unused _ => ?_, fun a used => used.elim, ?_⟩⟩
      · have unused₁ : ¬InUse (houses (BitVec.ofNat 32 i)) a :=
          fun used => unused ⟨_, here.ge, used⟩
        have unused₂ : ¬TakesFrom houses (i + 1) a := fun ⟨j, above, used⟩ =>
          unused ⟨j, by omega, used⟩
        exact (later.agree a unused₂ id).trans (turnover.agree a unused₁ id)
      · rintro a ⟨j, above, used⟩ unused
        by_cases same : j = BitVec.ofNat 32 i
        · subst same
          have free := turnover.given a used id
          have unused₂ : ¬TakesFrom houses (i + 1) a := fun ⟨k, above', used'⟩ =>
            housed.apart k _ (others k above') a used' used
          exact (later.agree a unused₂ id).trans free
        · have different : j.toNat ≠ i := fun equal =>
            same (BitVec.eq_of_toNat_eq (equal.trans here.symm))
          exact later.given a ⟨j, by omega, used⟩ id
    · have ended : table.clearLoop fuel (rounds + 1) i m = .ok m := by
        rw [HashTable.clearLoop, if_neg inside]
      refine ⟨m, ended, ⟨fun _ _ _ => rfl, fun a used => used.elim, ?_⟩⟩
      rintro a ⟨j, above, used⟩ _
      have beyond : ¬j < table.hashsize := by
        rw [BitVec.lt_def]
        omega
      rw [housed.beyond j beyond] at used
      exact absurd used (inUse_nil a)

omit [Key K] in
/-- `hashTable_clear` returns the loan. -/
theorem clear_returns {m₀ : Nodes α} {size : BitVec 32} {more rounds : Nat}
    (borrows : TableBorrows m₀ size fuel more (table, m)) (small : size.toNat < 2 ^ 31)
    (turns : size.toNat < rounds) : HashTable.clear rounds fuel table m = .ok m₀ := by
  obtain ⟨sized, houses, housed, room, loan⟩ := borrows
  dsimp only at sized
  rw [← sized] at small turns
  have enough : ∀ i, (houses i).length < fuel := fun i => by
    have bound := room i
    omega
  have turns' : table.hashsize.toNat < 0 + rounds := by omega
  obtain ⟨m', cleared, turnover⟩ := clearLoop_frees housed enough small rounds 0 (Nat.zero_le _)
    turns' fun j inside _ => housed.holds j inside
  have all : TakesFrom houses 0 = Takes houses := by
    funext a
    simp [TakesFrom, Takes]
  rw [all] at turnover
  have back : m' = m₀ := (loan.step turnover).returned fun _ => id
  rw [HashTable.clear, cleared, back]

/-- `hashTable_init` makes a table of any size below 2^31, and any calls on it, whatever its hash
and its comparison are, and `hashTable_clear` after them, end without a fault and leave the heap
as it was: every node that `malloc` gave was freed once, and no other one was touched. -/
theorem table_returned (size : BitVec 32) (positive : 0 < size) (small : size.toNat < 2 ^ 31)
    (hashfun : K → Nat → Int) (hashcmp : K → α → Int) (memory : Nat → Option HashNode)
    (rounds : Nat) (turns : size.toNat < rounds) :
    ∃ new, HashTable.init rounds size hashfun hashcmp memory = .ok new ∧
      ∀ (m : Nodes α) (ops : List (HashOp K α)) (fuel : Nat), ops.length < fuel →
        Permitted (HashTable.call fuel) HashOp.Granted ops (new, m) →
        ∃ results table m', calls (HashTable.call fuel) ops (new, m) = .ok (results, table, m') ∧
          HashTable.clear rounds fuel table m' = .ok m := by
  refine ⟨HashTable.empty size hashfun hashcmp, init_empty small turns hashfun hashcmp memory, ?_⟩
  intro m ops fuel enough granted
  have nothing : ∀ a, ¬Takes (fun _ => ([] : Cells α)) a := fun a ⟨_, used⟩ => inUse_nil a used
  have start : TableBorrows m size fuel ops.length (HashTable.empty size hashfun hashcmp, m) :=
    ⟨rfl, fun _ => [], housed_empty m positive hashfun hashcmp, fun _ => by simpa using enough,
      Loan.start m nothing⟩
  obtain ⟨results, ⟨table, m'⟩, called, borrows⟩ :=
    calls_keep (TableBorrows m size fuel) (table_borrows m size) start granted
  exact ⟨results, table, m', called, clear_returns borrows small turns⟩

/-- The nodes of the sample are returned. -/
theorem table_returned_sample :
    ∃ new results table m', HashTable.init 3 2 (fun (_ : List UInt8) len => -len) Sample.byLength
        (fun _ => some ⟨none⟩) = .ok new ∧
      calls (HashTable.call 6) Sample.someHashOps (new, fun _ => none) =
        .ok (results, table, m') ∧ HashTable.clear 3 6 table m' = .ok fun _ => none := by
  obtain ⟨new, made, returned⟩ := table_returned 2 (by decide) (by decide)
    (fun (_ : List UInt8) len => -len) Sample.byLength (fun _ => some ⟨none⟩) 3 (by decide)
  obtain rfl : HashTable.empty 2 (fun (_ : List UInt8) len => -len) Sample.byLength = new :=
    Except.ok.inj made
  have served := returned (fun _ => none) Sample.someHashOps 6 (by decide) ?_
  · obtain ⟨results, table, m', called, cleared⟩ := served
    exact ⟨_, results, table, m', made, called, cleared⟩
  · iterate 2
      refine ⟨rfl, ?_⟩
      rintro _ _ ⟨⟩
    iterate 3
      refine ⟨trivial, ?_⟩
      rintro _ _ ⟨⟩
    trivial

end EpollNet
