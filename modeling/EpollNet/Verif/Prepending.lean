import EpollNet.Verif.Sequences

/-!
# What `DataList_Addhead` does

`DataList_Addhead` makes the new node the head before it links it, so both of its links are set to
the node itself. On an empty list there is nothing to link and the node is the list. On any other
the old nodes are lost to everything that starts at the head, the search never gets past the new
node, and the second removal follows a node that the first one freed.
-/

namespace EpollNet

open EpollNet.Basis EpollNet.Basis.Cells

variable {α : Type} {m : Nodes α} {list : DataList} {cells : Cells α} {a : Nat} {d : α}

/-- Only the ends are removed. -/
def RemovesEnd : ListOp α → Prop
  | .removehead | .removetail => True
  | _ => False

/-- The data is ahead of what was there in a linked list, in which every search ends, and from
which as many removals at the ends as there are nodes return everything and leave the count at
zero. -/
def Prepended (list : DataList) (m : Nodes α) (xs : List α) : Prop :=
  (∃ cells, Linked m list cells ∧ cells.data = xs) ∧
  (∀ cmpfun : α → Int, ∃ fuel found, list.find m fuel cmpfun = .ok found) ∧
  ∀ (fuel : Nat) (ops : List (ListOp α)), (∀ op ∈ ops, RemovesEnd op) → ops.length = xs.length →
    ∃ results list' m', calls (DataList.call fuel) ops (list, m) = .ok (results, list', m') ∧
      results.reduceOption.Perm xs ∧ list'.count = 0

/-! ## A list that is linked -/

/-- Removing at the ends returns each element of a sequence once. -/
theorem removals_perm (ops : List (ListOp α)) (xs : List α) (ends : ∀ op ∈ ops, RemovesEnd op)
    (all : ops.length = xs.length) :
    (meaning ListOp.onSequence ops xs).1.reduceOption.Perm xs ∧
      (meaning ListOp.onSequence ops xs).2 = [] := by
  induction ops generalizing xs with
  | nil =>
    obtain rfl := List.eq_nil_of_length_eq_zero all.symm
    exact ⟨.nil, rfl⟩
  | cons op ops ih =>
    have later := fun op' member => ends op' (List.mem_cons_of_mem op member)
    have own := ends op List.mem_cons_self
    cases op with
    | removehead =>
      cases xs with
      | nil => cases all
      | cons x xs =>
        obtain ⟨perm, none⟩ := ih xs later (Nat.succ.inj all)
        exact ⟨perm.cons x, none⟩
    | removetail =>
      rcases List.eq_nil_or_concat' xs with rfl | ⟨xs, x, rfl⟩
      · cases all
      · have fewer : ops.length = xs.length := by simpa using all
        obtain ⟨perm, none⟩ := ih xs later fewer
        have step : meaning ListOp.onSequence (.removetail :: ops) (xs ++ [x]) =
            (some x :: (meaning ListOp.onSequence ops xs).1,
              (meaning ListOp.onSequence ops xs).2) := by
          simp [meaning, ListOp.onSequence]
        rw [step]
        exact ⟨(perm.cons x).trans (List.perm_append_singleton x xs).symm, none⟩
    | addtail node data => exact own.elim
    | removenode pick => exact own.elim
    | clear => exact own.elim

/-- A removal at an end makes no rounds. -/
theorem removal_fuel {op : ListOp α} (ends : RemovesEnd op) (fuel fuel' : Nat) :
    DataList.call fuel op = DataList.call fuel' op := by
  cases op with
  | removehead => rfl
  | removetail => rfl
  | addtail node data => exact ends.elim
  | removenode pick => exact ends.elim
  | clear => exact ends.elim

/-- Every linked list is searched to an end and emptied by removals. -/
theorem Linked.prepended (linked : Linked m list cells) : Prepended list m cells.data := by
  refine ⟨⟨cells, linked, rfl⟩, fun cmpfun => ?_, fun fuel ops ends all => ?_⟩
  · have found := findLoop_chain linked.chain cmpfun (Nat.lt_succ_self cells.length)
    rw [← linked.head] at found
    exact ⟨_, _, found⟩
  · have each : ∀ (_ : Nat) op (object : DataList × Nodes α) (xs : List α),
        (∃ cells, Linked object.2 object.1 cells ∧ cells.data = xs) → RemovesEnd op →
        ∃ object', DataList.call fuel op object = .ok ((op.onSequence xs).1, object') ∧
          ∃ cells, Linked object'.2 object'.1 cells ∧ cells.data = (op.onSequence xs).2 := by
      rintro _ op ⟨list, m⟩ _ ⟨cells, linked, rfl⟩ ends
      have granted : op.Granted (list, m) := by
        cases op with
        | addtail node data => exact ends.elim
        | _ => trivial
      obtain ⟨list', m', cells', called, linked', data⟩ :=
        call_linked linked (Nat.lt_succ_self _) op granted
      exact ⟨(list', m'), (removal_fuel ends _ _ ▸ called), cells', linked', data⟩
    obtain ⟨⟨list', m'⟩, called, cells', linked', data⟩ := calls_refine
      (fun _ object xs => ∃ cells, Linked object.2 object.1 cells ∧ cells.data = xs) each
      ⟨cells, linked, rfl⟩ (Permitted.of_all ends (list, m))
    obtain ⟨perm, none⟩ := removals_perm ops cells.data ends all
    refine ⟨_, list', m', called, perm, ?_⟩
    rw [none] at data
    rw [linked'.count, List.map_eq_nil_iff.mp data]
    rfl

/-! ## The new head -/

/-- An empty list becomes the new node. -/
theorem addhead_nil (linked : Linked m list []) (free : m a = none) (d : α) :
    ∃ list' m', list.addhead m (some a) d = .ok (list', m') ∧ Linked m' list' [(a, d)] := by
  obtain ⟨list', m', added, left, _⟩ := addtail_linked linked free d
  refine ⟨list', m', ?_, left⟩
  have head := linked.head
  have tail := linked.tail
  simp only [first_nil, last_nil] at head tail
  rw [← added]
  simp only [DataList.addhead, DataList.addtail, dataNodeCreate, head, tail]

/-- On any other the new node is the head and linked to itself. -/
theorem addhead_cons {h : Nat} (head : list.head = some h) (m : Nodes α) (a : Nat) (d : α) :
    list.addhead m (some a) d = .ok ({ list with head := some a, count := list.count + 1 },
      Function.update m a (some ⟨d, some a, some a⟩)) := by
  simp only [DataList.addhead, dataNodeCreate, head]
  rw [Nodes.store_some (Function.update_self ..), Exec.bind_ok,
    Nodes.store_some (Function.update_self ..), Exec.bind_ok, Function.update_idem,
    Function.update_idem]

/-- A search for anything else goes round for ever. -/
theorem addhead_find {cmpfun : α → Int} (different : cmpfun d ≠ 0) (fuel : Nat) :
    DataList.findLoop (Function.update m a (some ⟨d, some a, some a⟩)) cmpfun fuel (some a) =
      .error .looping := by
  induction fuel with
  | zero => rfl
  | succ fuel ih =>
    rw [DataList.findLoop, Nodes.load_some (Function.update_self ..), Exec.bind_ok,
      if_neg different]
    exact ih

/-- The first removal frees the head and keeps it, and the second follows it. -/
theorem addhead_removehead (tail : Option Nat) (count : BitVec 32) :
    ∃ list', DataList.removehead ⟨some a, tail, count⟩
        (Function.update m a (some ⟨d, some a, some a⟩)) =
          .ok (some d, list', Function.update m a none) ∧
      list'.removehead (Function.update m a none) = .error .fault := by
  have here : Function.update m a (some ⟨d, some a, some a⟩) a = some ⟨d, some a, some a⟩ :=
    Function.update_self ..
  have gone : Nodes.load (Function.update m a none) (some a) = .error .fault := by
    simp only [Nodes.load, Function.update_self]
  -- the new head of the branch is the node that is about to be freed
  have fixed : DataList.fixHead ⟨some a, tail, count⟩
      (Function.update m a (some ⟨d, some a, some a⟩)) =
        .ok (⟨some a, tail, count⟩, Function.update m a (some ⟨d, some a, some a⟩)) := by
    simp only [DataList.fixHead]
    rw [Nodes.store_some here, Exec.bind_ok, Nodes.load_some (Function.update_self ..),
      Exec.bind_ok]
    dsimp only
    rw [Nodes.store_some (Function.update_self ..), Exec.bind_ok, Function.update_idem,
      Function.update_idem]
  refine ⟨⟨some a, tail, count - 1⟩, ?_, ?_⟩
  · simp only [DataList.removehead]
    rw [Nodes.load_some here, Exec.bind_ok, fixed, Exec.bind_ok, Nodes.load_some here,
      Exec.bind_ok, Nodes.free_some here, Function.update_idem]
    rfl
  · simp only [DataList.removehead, gone]
    rfl

/-- What a list with elements is left with starts with a node whose `prev` is not `NULL`. -/
theorem addhead_severed {c : Nat × α} {rest : Cells α} (linked : Linked m list (c :: rest))
    {list' : DataList} {m' : Nodes α} (added : list.addhead m (some a) d = .ok (list', m')) :
    ¬Prepended list' m' (d :: Cells.data (c :: rest)) := by
  rintro ⟨⟨cells', linked', data⟩, _⟩
  rw [addhead_cons linked.head] at added
  obtain ⟨rfl, rfl⟩ := Prod.mk.inj (Except.ok.inj added)
  cases cells' with
  | nil => cases data
  | cons c' rest' =>
    obtain ⟨a', e⟩ := c'
    obtain rfl : a = a' := Option.some.inj linked'.head
    have first := linked'.chain.1
    rw [Function.update_self] at first
    exact absurd (congrArg Node.prev (Option.some.inj first)) (Option.some_ne_none a)

/-- On every linked list and with a node granted: `DataList_Addhead` leaves a linked list of the
data and then the old contents, searched to an end and emptied by removals, if and only if the list
was empty. -/
theorem addhead_prepends_iff (linked : Linked m list cells) (free : m a = none) (d : α) :
    (∃ list' m', list.addhead m (some a) d = .ok (list', m') ∧
      Prepended list' m' (d :: cells.data)) ↔ cells = [] := by
  constructor
  · rintro ⟨list', m', added, prepended⟩
    cases cells with
    | nil => rfl
    | cons c rest => exact absurd prepended (addhead_severed linked added)
  · rintro rfl
    obtain ⟨list', m', added, linked'⟩ := addhead_nil linked free d
    exact ⟨list', m', added, linked'.prepended⟩

/-- A list that was empty holds one datum, found and removed again. -/
theorem addhead_prepends_empty : ∃ list' m',
    DataList.addhead DataList.create (fun _ => none) (some 7) 1 = .ok (list', m') ∧
      Prepended list' m' [1] :=
  (addhead_prepends_iff (linked_create _) rfl 1).mpr rfl

/-- A list of one datum loses it. -/
theorem addhead_severs : ¬∀ (m : Nodes Nat) (list : DataList) (cells : Cells Nat) (a d : Nat),
    Linked m list cells → m a = none → ∃ list' m', list.addhead m (some a) d = .ok (list', m') ∧
      Prepended list' m' (d :: cells.data) := by
  intro always
  obtain ⟨list, m, added, linked, agree⟩ :=
    addtail_linked (linked_create fun _ => none) (a := 7) rfl 1
  have free : m 8 = none := agree 8 (by decide)
  obtain ⟨list', m', added, prepended⟩ := always m list _ 8 2 linked free
  exact addhead_severed linked added prepended

end EpollNet
