import EpollNet.Verif.HashTable
import EpollNet.Verif.Sequences

/-!
# Insertions whose allocations fail

`DataList_Addtail` counts a node it did not get, and links it if there is a tail to link it to. So a
list, a queue and a bucket take a refused node amiss: the empty ones count an element they do not
have, the others follow `NULL`. `hashTable_push` does nothing if its hash node is refused, but goes
on with a hash node whose list was. Apart from these an insertion appends its data; and when the
count comes round to zero the size denies what the next removal returns.
-/

namespace EpollNet

open EpollNet.Basis EpollNet.Basis.Cells

variable {K α : Type} {m m' : Nodes α} {list list' : DataList} {cells : Cells α} {xs : List α}
  {d : α} {answer : Option Nat}

/-! ## What may be used afterwards -/

/-- The list holds the sequence: it is linked, later calls return what they do on the sequence, a
search returns what it finds there, and it counts more than zero exactly when a removal returns an
element. -/
structure Usable (list : DataList) (m : Nodes α) (xs : List α) : Prop where
  /-- It is linked. -/
  linked : ∃ cells, Linked m list cells ∧ cells.data = xs
  /-- Later calls. -/
  later : ∀ (fuel : Nat) (ops : List (ListOp α)), xs.length + ops.length < fuel →
    Permitted (DataList.call fuel) ListOp.Granted ops (list, m) →
      ∃ object, calls (DataList.call fuel) ops (list, m) =
        .ok ((meaning ListOp.onSequence ops xs).1, object)
  /-- A search. -/
  found : ∀ (fuel : Nat) (cmpfun : α → Int), xs.length < fuel →
    ∃ node, list.find m fuel cmpfun = .ok node ∧
      (node.bind m).map Node.data = xs.find? fun d => cmpfun d = 0
  /-- The count and a removal. -/
  sized : 0 < list.getcount ↔
    ∃ data object, list.removehead m = .ok (some data, object) ∧ data ∈ xs

/-- The queue holds the sequence. -/
structure QueueUsable (queue : DataQueue) (m : Nodes α) (xs : List α) : Prop where
  /-- Its list does. -/
  list : Usable queue.list m xs
  /-- Later calls. -/
  later : ∀ ops : List (QueueOp α), Permitted DataQueue.call QueueOp.Granted ops (queue, m) →
    ∃ object, calls DataQueue.call ops (queue, m) = .ok ((meaning QueueOp.onQueue ops xs).1, object)
  /-- The size and a pop. -/
  sized : 0 < queue.size ↔ ∃ data object, queue.pop m = .ok (some data, object) ∧ data ∈ xs

/-- The table holds the entries: its buckets do, and later calls return what they do on the
entries. -/
structure TableUsable [Key K] (table : HashTable K α) (m : Nodes α) (entries : List (K × α)) :
    Prop where
  /-- Its buckets hold them. -/
  bucketed : ∃ cells, Bucketed m table entries cells
  /-- Later calls. -/
  later : ∀ (fuel : Nat) (ops : List (HashOp K α)), entries.length + ops.length < fuel →
    (∀ op ∈ ops, table.Fits op) →
    Permitted (HashTable.call fuel) HashOp.Granted ops (table, m) →
      ∃ object, calls (HashTable.call fuel) ops (table, m) =
        .ok ((meaning (HashOp.onEntries table.hashcmp) ops entries).1, object)

/-- `DataList_Addtail` appends the data or leaves the list as it was. -/
def AddsAtomically (list : DataList) (m : Nodes α) (answer : Option Nat) (xs : List α) (d : α) :
    Prop :=
  ∃ list' m', list.addtail m answer d = .ok (list', m') ∧
    (Usable list' m' (xs ++ [d]) ∨ Usable list' m' xs)

/-- `dataQueue_push` appends the data or leaves the queue as it was. -/
def PushesAtomically (queue : DataQueue) (m : Nodes α) (answer : Option Nat) (xs : List α) (d : α) :
    Prop :=
  ∃ queue' m', queue.push m answer d = .ok (queue', m') ∧
    (QueueUsable queue' m' (xs ++ [d]) ∨ QueueUsable queue' m' xs)

/-- `hashTable_push` adds the entry or leaves the table as it was, and neither its hash nor its
comparison changes. -/
def EntersAtomically [Key K] (table : HashTable K α) (m : Nodes α) (grants : Grants)
    (entries : List (K × α)) (key : K) (d : α) : Prop :=
  ∃ table' m', table.push m key d grants = .ok (table', m') ∧ Alike table table' ∧
    (TableUsable table' m' (entries ++ [(key, d)]) ∨ TableUsable table' m' entries)

/-! ## Lists -/

/-- The node found in a chain holds the element found in its data. -/
theorem found_data {p : Option Nat} (chain : Chain m p cells none) (test : α → Bool) :
    (((cells.find? fun c => test c.2).map Prod.fst).bind m).map Node.data =
      cells.data.find? test := by
  induction cells generalizing p with
  | nil => rfl
  | cons c cells ih =>
    obtain ⟨a, e⟩ := c
    obtain ⟨here, rest⟩ := chain
    rw [List.find?_cons, data_cons, List.find?_cons]
    cases test e with
    | true => simp [here]
    | false => exact ih rest

/-- A linked list holds the data of its cells, unless there are some and the count is zero. -/
theorem Linked.usable (linked : Linked m list cells)
    (counted : cells = [] ∨ ¬2 ^ 32 ∣ cells.length) : Usable list m cells.data := by
  have length : cells.data.length = cells.length := List.length_map ..
  refine ⟨⟨cells, linked, rfl⟩, fun fuel ops enough granted => ?_, fun fuel cmpfun enough => ?_, ?_⟩
  · have stands : Stands fuel ops.length (list, m) cells.data :=
      ⟨cells, linked, rfl, length ▸ enough⟩
    obtain ⟨object, called, _⟩ := calls_refine (Stands fuel) call_stands stands granted
    exact ⟨object, called⟩
  · refine ⟨_, ?_, found_data linked.chain _⟩
    rw [DataList.find, linked.head]
    exact findLoop_chain linked.chain cmpfun (length ▸ enough)
  · cases cells with
    | nil =>
      have count : list.getcount = 0 := linked.count
      rw [count, removehead_nil linked]
      simp
    | cons c cells =>
      obtain ⟨list', m', removed, _⟩ := removehead_cons linked
      refine iff_of_true ?_ ⟨c.2, (list', m'), removed, List.mem_cons_self⟩
      have nonzero : ¬2 ^ 32 ∣ (c :: cells).length := by simpa using counted
      have count : list.getcount = BitVec.ofNat 32 (c :: cells).length := linked.count
      rw [count, BitVec.lt_def, BitVec.toNat_ofNat]
      exact Nat.pos_of_ne_zero fun zero => nonzero (Nat.dvd_of_mod_eq_zero zero)

/-- A list whose count is zero with a node in it does not. -/
theorem Usable.counted (usable : Usable list m xs) {n : Nat}
    (count : list.count = BitVec.ofNat 32 n) (head : list.head ≠ none) : ¬2 ^ 32 ∣ n := by
  obtain ⟨cells, linked, rfl⟩ := usable.linked
  cases cells with
  | nil => exact absurd linked.head head
  | cons c cells =>
    obtain ⟨list', m', removed, _⟩ := removehead_cons linked
    have positive := usable.sized.mpr ⟨c.2, (list', m'), removed, List.mem_cons_self⟩
    intro divides
    rw [DataList.getcount, count, BitVec.lt_def, BitVec.toNat_ofNat,
      Nat.mod_eq_zero_of_dvd divides] at positive
    exact absurd positive (lt_irrefl 0)

/-- Nor does one that counts a node it does not have. -/
theorem not_linked_counted (cells : Cells α) : ¬Linked m ⟨none, none, 1⟩ cells := by
  intro linked
  cases cells with
  | nil =>
    have uncounted : (1 : BitVec 32) ≠ BitVec.ofNat 32 0 := by decide
    exact absurd linked.count uncounted
  | cons c cells => exact absurd linked.head.symm (Option.some_ne_none c.1)

/-- A refused node is followed, or counted. -/
theorem addtail_refused (linked : Linked m list cells) (d : α) :
    (cells = [] ∧ list.addtail m none d = .ok (⟨none, none, 1⟩, m)) ∨
      list.addtail m none d = .error .fault := by
  rcases List.eq_nil_or_concat' cells with rfl | ⟨before, ⟨t, e⟩, rfl⟩
  · have tail : list.tail = none := linked.tail
    have count : list.count + 1 = 1 := by
      rw [linked.count]
      rfl
    refine .inl ⟨rfl, ?_⟩
    simp only [DataList.addtail, dataNodeCreate, tail, count]
  · have tail : list.tail = some t := by
      rw [linked.tail, last_append]
      rfl
    have here := (chain_append.mp linked.chain).2.1
    refine .inr ?_
    simp only [DataList.addtail, dataNodeCreate, tail]
    rw [Nodes.store_some here]
    rfl

/-- `DataList_Addtail` is atomic exactly if the node is granted and the count does not come round to
zero. -/
theorem addtail_atomic_iff (linked : Linked m list cells)
    (free : ∀ a, answer = some a → m a = none) (d : α) :
    AddsAtomically list m answer cells.data d ↔
      answer.isSome = true ∧ ¬2 ^ 32 ∣ cells.length + 1 := by
  cases answer with
  | none =>
    refine iff_of_false ?_ fun granted => Bool.false_ne_true granted.1
    rintro ⟨list', m', added, usable⟩
    rcases addtail_refused linked d with ⟨_, counted⟩ | fault
    · rw [counted] at added
      obtain ⟨rfl, rfl⟩ := Prod.mk.inj (Except.ok.inj added)
      rcases usable with usable | usable <;>
        exact not_linked_counted _ usable.linked.choose_spec.1
    · rw [fault] at added
      cases added
  | some a =>
    obtain ⟨list', m', added, linked', _⟩ := addtail_linked linked (free a rfl) d
    have length : (cells ++ [(a, d)]).length = cells.length + 1 := by simp
    constructor
    · rintro ⟨list'', m'', added', usable⟩
      rw [added] at added'
      obtain ⟨rfl, rfl⟩ := Prod.mk.inj (Except.ok.inj added')
      refine ⟨rfl, ?_⟩
      have head : list'.head ≠ none := by
        rw [linked'.head, first_append]
        cases cells with
        | nil => exact Option.some_ne_none a
        | cons c _ => exact Option.some_ne_none c.1
      rw [← length]
      rcases usable with usable | usable
      · exact usable.counted linked'.count head
      · exact usable.counted linked'.count head
    · rintro ⟨_, counted⟩
      have usable := linked'.usable (.inr (length ▸ counted))
      rw [data_append] at usable
      exact ⟨list', m', added, .inl usable⟩

/-! ## Queues -/

/-- A queue holds what its list does. -/
theorem Usable.queue {queue : DataQueue} (usable : Usable queue.list m xs) :
    QueueUsable queue m xs := by
  refine ⟨usable, fun ops granted => ?_, ?_⟩
  · have stands : QueueStands (queue, m) xs := usable.linked
    obtain ⟨object, called, _⟩ := calls_refine (fun _ => QueueStands)
      (fun _ => DataQueue.call_stands) stands granted
    exact ⟨object, called⟩
  · have popped : ∀ data, (∃ object, queue.pop m = .ok (some data, object)) ↔
        ∃ object, queue.list.removehead m = .ok (some data, object) := by
      intro data
      unfold DataQueue.pop
      cases queue.list.removehead m with
      | error halt =>
        exact ⟨fun popped => (nomatch popped.choose_spec),
          fun removed => (nomatch removed.choose_spec)⟩
      | ok result =>
        obtain ⟨data', list', m'⟩ := result
        rw [Exec.bind_ok]
        constructor
        · rintro ⟨object, popped⟩
          cases popped
          exact ⟨_, rfl⟩
        · rintro ⟨object, removed⟩
          cases removed
          exact ⟨_, rfl⟩
    rw [DataQueue.size, usable.sized]
    refine exists_congr fun data => ?_
    rw [exists_and_right, exists_and_right, popped]

/-- `dataQueue_push` is atomic exactly if `DataList_Addtail` is. -/
theorem push_atomic_iff (queue : DataQueue) (m : Nodes α) (answer : Option Nat) (xs : List α)
    (d : α) : PushesAtomically queue m answer xs d ↔ AddsAtomically queue.list m answer xs d := by
  unfold PushesAtomically AddsAtomically DataQueue.push
  constructor
  · rintro ⟨queue', m', pushed, usable⟩
    cases added : queue.list.addtail m answer d with
    | error halt =>
      rw [added] at pushed
      cases pushed
    | ok result =>
      obtain ⟨list', m''⟩ := result
      rw [added, Exec.bind_ok] at pushed
      cases pushed
      exact ⟨_, _, rfl, usable.imp QueueUsable.list QueueUsable.list⟩
  · rintro ⟨list', m', added, usable⟩
    refine ⟨⟨list'⟩, m', ?_, usable.imp Usable.queue Usable.queue⟩
    rw [added, Exec.bind_ok]

/-! ## Tables -/

section Tables

variable [Key K] {table table' : HashTable K α} {entries : List (K × α)}
  {buckets : BitVec 32 → Cells α} {grants : Grants} {key : K}

/-- A bucketed table holds its entries. -/
theorem Bucketed.usable (bucketed : Bucketed m table entries buckets) :
    TableUsable table m entries := by
  refine ⟨⟨buckets, bucketed⟩, fun fuel ops enough fits granted => ?_⟩
  have stands : TableStands table fuel ops.length (table, m) entries :=
    ⟨⟨rfl, rfl⟩, enough, buckets, bucketed⟩
  obtain ⟨object, called, _⟩ :=
    calls_refine (TableStands table fuel) (HashTable.call_stands table) stands (granted.and fits)
  exact ⟨object, called⟩

/-- What a push was granted is enough: nothing for an empty bucket, or a node for the data and,
where the bucket was empty, a list. -/
def Grants.Suffice (grants : Grants) (bucket : Option HashNode) : Prop :=
  (bucket = none ∧ grants.hashnode = false) ∨
    ((bucket = none → grants.list = true) ∧ grants.datanode.isSome = true)

omit [Key K] in
/-- A bucket that can be read is in the array. -/
theorem bucket_inside {i : BitVec 32} {bucket : Option HashNode}
    (found : table.bucket i = .ok bucket) : table.buckets[i.toNat]? = some bucket := by
  unfold HashTable.bucket at found
  cases entry : table.buckets[i.toNat]? with
  | none =>
    rw [entry] at found
    cases found
  | some bucket' =>
    rw [entry] at found
    exact congrArg some (Except.ok.inj found)

omit [Key K] in
/-- It can be written, and is what was written. -/
theorem setBucket_found {i : BitVec 32} {bucket : Option HashNode}
    (found : table.bucket i = .ok bucket) (new : Option HashNode) :
    table.setBucket i new = .ok { table with buckets := table.buckets.set i.toNat new } ∧
      HashTable.bucket { table with buckets := table.buckets.set i.toNat new } i = .ok new := by
  obtain ⟨inside, _⟩ := List.getElem?_eq_some_iff.mp (bucket_inside found)
  exact ⟨if_pos inside, by simp [HashTable.bucket, inside]⟩

/-- A push whose hash node is refused does nothing. -/
theorem push_refused (empty : table.bucket (table.index key) = .ok none)
    (refused : grants.hashnode = false) (m : Nodes α) (d : α) :
    table.push m key d grants = .ok (table, m) := by
  obtain ⟨inside, entry⟩ := List.getElem?_eq_some_iff.mp (bucket_inside empty)
  have same : table.buckets.set (table.index key).toNat none = table.buckets := by
    rw [← entry]
    exact List.set_getElem_self inside
  have written := (setBucket_found empty none).1
  rw [same] at written
  simp only [HashTable.push, empty, Exec.bind_ok, hashNodeCreate, refused, Bool.false_eq_true,
    if_false, written, HashTable.pushIn]

/-- A bucket that counts a node it does not have holds nothing. -/
theorem not_bucketed (found : table.bucket (table.index key) = .ok (some ⟨some ⟨none, none, 1⟩⟩)) :
    ¬TableUsable table m entries := by
  rintro ⟨⟨cells, bucketed⟩, _⟩
  obtain ⟨bucket, found', holds⟩ := bucketed.holds _ (bucketed.index_lt key)
  obtain rfl := Except.ok.inj (found.symm.trans found')
  exact not_linked_counted _ holds

/-- A node refused to a bucket with a list is followed, or counted. -/
theorem pushIn_refused (bucketed : Bucketed m table entries buckets) {hashnode : HashNode}
    (found : table.bucket (table.index key) = .ok (some hashnode)) (d : α) :
    table.pushIn m (table.index key) d none = .error .fault ∨
      ∃ table' m', table.pushIn m (table.index key) d none = .ok (table', m') ∧
        table'.bucket (table.index key) = .ok (some ⟨some ⟨none, none, 1⟩⟩) := by
  obtain ⟨bucket, found', holds⟩ := bucketed.holds _ (bucketed.index_lt key)
  obtain rfl := Except.ok.inj (found.symm.trans found')
  obtain ⟨_ | list⟩ := hashnode
  · exact holds.elim
  have linked : Linked m list (buckets (table.index key)) := holds
  obtain ⟨written, reads⟩ := setBucket_found found (some ⟨some ⟨none, none, 1⟩⟩)
  rcases addtail_refused linked d with ⟨_, counted⟩ | fault
  · refine .inr ⟨_, m, ?_, reads⟩
    simp only [HashTable.pushIn, found, counted, Exec.bind_ok, written]
  · refine .inl ?_
    simp only [HashTable.pushIn, found, fault, Exec.bind_ok]
    rfl

/-- Into a bucket with a list a push is atomic exactly if its node is granted. -/
theorem pushIn_atomic_iff {first : HashTable K α} (like : Alike first table)
    (bucketed : Bucketed m table entries buckets) (free : ∀ a, answer = some a → m a = none)
    (fits : ∀ key', table.hashcmp key' d = 0 → table.index key' = table.index key)
    {hashnode : HashNode} (found : table.bucket (table.index key) = .ok (some hashnode)) :
    (∃ table' m', table.pushIn m (first.index key) d answer = .ok (table', m') ∧
      Alike first table' ∧
      (TableUsable table' m' (entries ++ [(key, d)]) ∨ TableUsable table' m' entries)) ↔
      answer.isSome = true := by
  rw [← like.index]
  cases answer with
  | none =>
    refine iff_of_false ?_ Bool.false_ne_true
    rintro ⟨table', m', pushed, alike, usable⟩
    rcases pushIn_refused bucketed found d with fault | ⟨table'', m'', counted, reads⟩
    · rw [fault] at pushed
      cases pushed
    · rw [counted] at pushed
      obtain ⟨rfl, rfl⟩ := Prod.mk.inj (Except.ok.inj pushed)
      rw [like.index, ← alike.index] at reads
      exact usable.elim (not_bucketed reads) (not_bucketed reads)
  | some a =>
    obtain ⟨table', m', cells, pushed, alike, bucketed'⟩ :=
      pushIn_bucketed bucketed found (free a rfl) fits
    exact iff_of_true ⟨table', m', pushed, like.trans alike, .inl bucketed'.usable⟩ rfl

/-- `hashTable_push` is atomic exactly if what it was granted is enough. -/
theorem hashPush_atomic_iff (bucketed : Bucketed m table entries buckets)
    (free : ∀ a, grants.datanode = some a → m a = none)
    (fits : ∀ key', table.hashcmp key' d = 0 → table.index key' = table.index key)
    {bucket : Option HashNode} (found : table.bucket (table.index key) = .ok bucket) :
    EntersAtomically table m grants entries key d ↔ grants.Suffice bucket := by
  unfold EntersAtomically Grants.Suffice
  cases bucket with
  | some hashnode =>
    have pushed : table.push m key d grants =
        table.pushIn m (table.index key) d grants.datanode := by
      simp only [HashTable.push, found, Exec.bind_ok]
    rw [pushed, pushIn_atomic_iff ⟨rfl, rfl⟩ bucketed free fits found]
    simp
  | none =>
    cases given : grants.hashnode with
    | false =>
      exact iff_of_true
        ⟨table, m, push_refused found given m d, ⟨rfl, rfl⟩, .inr bucketed.usable⟩ (.inl ⟨rfl, rfl⟩)
    | true =>
      obtain ⟨written, reads⟩ := setBucket_found found (hashNodeCreate grants)
      have pushed : table.push m key d grants = HashTable.pushIn { table with
          buckets := table.buckets.set (table.index key).toNat (hashNodeCreate grants) }
          m (table.index key) d grants.datanode := by
        simp only [HashTable.push, found, Exec.bind_ok, written]
      rw [pushed]
      cases listed : grants.list with
      | false =>
        have made : hashNodeCreate grants = some ⟨none⟩ := by
          simp only [hashNodeCreate, given, listed, Bool.false_eq_true, if_true, if_false]
        rw [made] at reads ⊢
        refine iff_of_false ?_ (by simp)
        rintro ⟨table', m', pushed, _⟩
        simp only [HashTable.pushIn, reads, Exec.bind_ok] at pushed
        cases pushed
      | true =>
        have made : hashNodeCreate grants = some ⟨some DataList.create⟩ := by
          simp only [hashNodeCreate, given, listed, if_true]
        have empty : buckets (table.index key) = [] := by
          obtain ⟨bucket, found', holds⟩ := bucketed.holds _ (bucketed.index_lt key)
          obtain rfl := Except.ok.inj (found.symm.trans found')
          exact holds
        rw [made] at written reads ⊢
        obtain ⟨table₁, written', _, alike, bucketed₁⟩ :=
          bucketed.set (bucketed.index_lt key) (linked_create m) (Nodes.Agree.refl [] m)
            (fun _ member => member) (fun _ _ _ _ => List.not_mem_nil) bucketed.consistent
            (by rw [← bucketed.sorted, empty]) (fun _ _ => rfl)
        obtain rfl := Except.ok.inj (written.symm.trans written')
        refine (pushIn_atomic_iff alike bucketed₁ free fits reads).trans ?_
        simp

end Tables

/-! ## All three -/

/-- For every linked list and queue, every bucketed table and every outcome of the `malloc`s: an
insertion into a list or a queue appends the data or leaves everything as it was, without following
`NULL` and with everything usable afterwards, if and only if its node is granted and the count does
not come round to zero; a push into a table, if and only if what it was granted is enough. -/
theorem insertion_atomic_iff [Key K] :
    (∀ (m : Nodes α) (list : DataList) (cells : Cells α) (answer : Option Nat) (d : α),
      Linked m list cells → (∀ a, answer = some a → m a = none) →
        (AddsAtomically list m answer cells.data d ↔
          answer.isSome = true ∧ ¬2 ^ 32 ∣ cells.length + 1)) ∧
    (∀ (m : Nodes α) (queue : DataQueue) (cells : Cells α) (answer : Option Nat) (d : α),
      Linked m queue.list cells → (∀ a, answer = some a → m a = none) →
        (PushesAtomically queue m answer cells.data d ↔
          answer.isSome = true ∧ ¬2 ^ 32 ∣ cells.length + 1)) ∧
    ∀ (m : Nodes α) (table : HashTable K α) (entries : List (K × α))
      (buckets : BitVec 32 → Cells α) (grants : Grants) (key : K) (d : α)
      (bucket : Option HashNode), Bucketed m table entries buckets →
        (∀ a, grants.datanode = some a → m a = none) →
        (∀ key', table.hashcmp key' d = 0 → table.index key' = table.index key) →
        table.bucket (table.index key) = .ok bucket →
          (EntersAtomically table m grants entries key d ↔ grants.Suffice bucket) :=
  ⟨fun _ _ _ _ d linked free => addtail_atomic_iff linked free d,
    fun m queue _ answer d linked free =>
      (push_atomic_iff queue m answer _ d).trans (addtail_atomic_iff linked free d),
    fun _ _ _ _ _ _ _ _ bucketed free fits found => hashPush_atomic_iff bucketed free fits found⟩

namespace Sample

/-- One node, with the datum 1. -/
def oneNode : Nodes Nat := Function.update (fun _ => none) 3 (some ⟨1, none, none⟩)

/-- The list of this node. -/
def oneList : DataList := ⟨some 3, some 3, 1⟩

/-- A table with this list in its one bucket. -/
def oneTable : HashTable (List UInt8) Nat :=
  { HashTable.empty 1 (fun _ _ => 0) byLength with buckets := [some ⟨some oneList⟩] }

/-- They are what one insertion makes of new ones. -/
theorem oneList_linked : Linked oneNode oneList [(3, 1)] := by
  obtain ⟨list', m', added, linked, _⟩ := addtail_linked (linked_create fun _ => none) rfl 1
  have made : DataList.create.addtail (fun _ => none) (some 3) 1 = .ok (oneList, oneNode) := rfl
  obtain ⟨rfl, rfl⟩ := Prod.mk.inj (Except.ok.inj (made.symm.trans added))
  exact linked

/-- So is the table. -/
theorem oneTable_bucketed : ∃ cells, Bucketed oneNode oneTable [([65], 1)] cells := by
  have positive : (0 : BitVec 32) < 1 := by decide
  obtain ⟨table', m', cells, pushed, _, bucketed⟩ :=
    push_bucketed (bucketed_empty (fun _ => none) positive (fun _ _ => 0) byLength) rfl
      (fun _ _ => rfl)
  have made : (HashTable.empty 1 (fun _ _ => 0) byLength).push (fun _ => none) [65] 1
      ⟨true, true, some 3⟩ = .ok (oneTable, oneNode) := rfl
  obtain ⟨rfl, rfl⟩ := Prod.mk.inj (Except.ok.inj (made.symm.trans pushed))
  exact ⟨cells, bucketed⟩

end Sample

/-- A list, a queue and a table that have one element take a second with the node they are
granted. -/
theorem insertion_atomic_second :
    AddsAtomically Sample.oneList Sample.oneNode (some 7) [1] 2 ∧
    PushesAtomically ⟨Sample.oneList⟩ Sample.oneNode (some 7) [1] 2 ∧
    EntersAtomically Sample.oneTable Sample.oneNode ⟨true, true, some 7⟩ [([65], 1)] [66, 67]
      2 := by
  obtain ⟨lists, queues, tables⟩ := @insertion_atomic_iff (List UInt8) Nat _
  have linked := Sample.oneList_linked
  have free : ∀ a, some 7 = some a → Sample.oneNode a = none := by
    rintro a ⟨⟩
    rfl
  refine ⟨?_, ?_, ?_⟩
  · exact (lists _ _ [(3, 1)] (some 7) 2 linked free).mpr ⟨rfl, by decide⟩
  · exact (queues _ ⟨Sample.oneList⟩ [(3, 1)] (some 7) 2 linked free).mpr ⟨rfl, by decide⟩
  · obtain ⟨cells, bucketed⟩ := Sample.oneTable_bucketed
    refine (tables _ _ _ cells _ [66, 67] 2 _ bucketed free (fun key' _ => ?_) rfl).mpr
      (.inr ⟨nofun, rfl⟩)
    rfl

/-- A new list and a new queue count a node they were refused, and a new table follows the list it
was refused. -/
theorem insertion_torn :
    (¬∀ (m : Nodes Nat) (list : DataList) (cells : Cells Nat) (answer : Option Nat) (d : Nat),
      Linked m list cells → (∀ a, answer = some a → m a = none) →
        AddsAtomically list m answer cells.data d) ∧
    (¬∀ (m : Nodes Nat) (queue : DataQueue) (cells : Cells Nat) (answer : Option Nat) (d : Nat),
      Linked m queue.list cells → (∀ a, answer = some a → m a = none) →
        PushesAtomically queue m answer cells.data d) ∧
    ¬∀ (m : Nodes Nat) (table : HashTable (List UInt8) Nat) (entries : List (List UInt8 × Nat))
      (buckets : BitVec 32 → Cells Nat) (grants : Grants) (key : List UInt8) (d : Nat),
      Bucketed m table entries buckets → (∀ a, grants.datanode = some a → m a = none) →
        (∀ key', table.hashcmp key' d = 0 → table.index key' = table.index key) →
          EntersAtomically table m grants entries key d := by
  have linked := linked_create (fun _ => (none : Option (Node Nat)))
  have free : ∀ a, (none : Option Nat) = some a → (none : Option (Node Nat)) = none :=
    fun _ _ => rfl
  refine ⟨fun always => ?_, fun always => ?_, fun always => ?_⟩
  · have granted := (addtail_atomic_iff linked free 1).mp (always _ _ [] none 1 linked free)
    exact Bool.false_ne_true granted.1
  · have added := (push_atomic_iff _ _ _ _ _).mp (always _ DataQueue.init [] none 1 linked free)
    exact Bool.false_ne_true ((addtail_atomic_iff linked free 1).mp added).1
  · have bucketed := bucketed_empty (fun _ => (none : Option (Node Nat)))
      (by decide : (0 : BitVec 32) < 1) (fun _ _ => 0) Sample.byLength
    have enters := always _ _ [] _ ⟨true, false, some 7⟩ [65] 1 bucketed (fun _ _ => rfl)
      fun _ _ => rfl
    have enough := (hashPush_atomic_iff bucketed (fun _ _ => rfl) (fun _ _ => rfl) rfl).mp enters
    rcases enough with ⟨_, refused⟩ | ⟨listed, _⟩
    · exact absurd refused.symm Bool.false_ne_true
    · exact Bool.false_ne_true (listed rfl)

end EpollNet
