import EpollNet.Net.DataList
import Mathlib.Data.BitVec

/-!
# Doubly linked lists hold sequences

`Linked` says which cells a list consists of. Each function of `list.c` is shown to end without a
fault on a linked list, to leave a linked list with the cells that a sequence would have, and to
touch no node of anybody else.
-/

namespace EpollNet

open EpollNet.Basis EpollNet.Basis.Cells

variable {α : Type} {m m' : Nodes α} {list list' : DataList} {cells : Cells α}

/-- The list consists of the cells. -/
structure Linked (m : Nodes α) (list : DataList) (cells : Cells α) : Prop where
  /-- No node twice. -/
  nodup : cells.addrs.Nodup
  /-- The nodes are linked both ways. -/
  chain : Chain m none cells none
  /-- The head is the first one. -/
  head : list.head = cells.first none
  /-- The tail is the last one. -/
  tail : list.tail = cells.last none
  /-- They are counted. -/
  count : list.count = BitVec.ofNat 32 cells.length

/-- Other people's memory does not matter. -/
theorem Linked.apart (linked : Linked m list cells) {own : List Nat} (agree : Nodes.Agree own m m')
    (disjoint : ∀ a ∈ cells.addrs, a ∉ own) : Linked m' list cells :=
  { linked with chain := linked.chain.apart agree disjoint }

/-- A new list has no nodes. -/
theorem linked_create (m : Nodes α) : Linked m DataList.create [] :=
  ⟨List.nodup_nil, trivial, rfl, rfl, rfl⟩

/-! ## Adding -/

/-- One more node is counted. -/
theorem count_succ (n : Nat) : BitVec.ofNat 32 n + 1 = BitVec.ofNat 32 (n + 1) :=
  (BitVec.ofNat_add n 1).symm

/-- One node less is counted. -/
theorem count_pred (n : Nat) : BitVec.ofNat 32 (n + 1) - 1 = BitVec.ofNat 32 n := by
  rw [← count_succ]
  exact BitVec.add_sub_cancel _ _

/-- `DataList_Addtail` appends. -/
theorem addtail_linked (linked : Linked m list cells) {a : Nat} (free : m a = none) (d : α) :
    ∃ list' m', list.addtail m (some a) d = .ok (list', m') ∧ Linked m' list' (cells ++ [(a, d)]) ∧
      Nodes.Agree (addrs (cells ++ [(a, d)])) m m' := by
  obtain ⟨nodup, chain, head, tail, count⟩ := linked
  have fresh : a ∉ cells.addrs := by
    intro member
    have allocated := chain.allocated member
    rw [free] at allocated
    contradiction
  have distinct : (addrs (cells ++ [(a, d)])).Nodup := by
    rw [addrs_append]
    exact nodup.append (List.nodup_singleton a) (by simpa using fresh)
  have counted : list.count + 1 = BitVec.ofNat 32 (cells ++ [(a, d)]).length := by
    rw [count, count_succ, List.length_append]
    rfl
  rcases List.eq_nil_or_concat' cells with rfl | ⟨before, ⟨t, e⟩, rfl⟩
  · refine ⟨⟨some a, some a, list.count + 1⟩, Function.update m a (some ⟨d, none, none⟩), ?_,
      ⟨distinct, ?_, rfl, rfl, counted⟩, Nodes.Agree.update (by simp) _⟩
    · rw [last_nil] at tail
      simp only [DataList.addtail, dataNodeCreate, tail]
    · simp
  · have apart : t ≠ a := by
      rintro rfl
      exact fresh (by simp)
    obtain ⟨ahead, here, _⟩ := chain_append.mp chain
    rw [first_nil] at here
    rw [last_append, last_cons, last_nil] at tail
    have outside : t ∉ addrs before := by
      rw [addrs_append] at nodup
      simpa using List.disjoint_of_nodup_append nodup
    have away : a ∉ addrs before := fun member => fresh (by simp [member])
    let m₁ : Nodes α := Function.update m a (some ⟨d, none, none⟩)
    let m₂ : Nodes α := Function.update m₁ t (some ⟨e, some a, last before none⟩)
    let m₃ : Nodes α := Function.update m₂ a (some ⟨d, none, some t⟩)
    have first : m₁.store (some t) (fun n => { n with next := some a }) = .ok m₂ :=
      Nodes.store_some ((Function.update_of_ne apart _ _).trans here) _
    have second : m₂.store (some a) (fun n => { n with prev := some t }) = .ok m₃ := by
      refine Nodes.store_some (n := ⟨d, none, none⟩) ?_ _
      simp [m₂, m₁, apart.symm]
    refine ⟨{ list with tail := some a, count := list.count + 1 }, m₃, ?_,
      ⟨distinct, ?_, ?_, by simp, counted⟩, ?_⟩
    · simp only [DataList.addtail, dataNodeCreate, tail]
      rw [first, Exec.bind_ok, second, Exec.bind_ok]
    · refine chain_append.mpr ⟨chain_append.mpr ⟨?_, ?_, trivial⟩, ?_, trivial⟩
      · exact ((ahead.update away _).update outside _).update away _
      · simp [m₃, m₂, apart]
      · simp [m₃]
    · rw [head]
      simp
    · refine ((Nodes.Agree.update ?_ _).trans (Nodes.Agree.update ?_ _)).trans
        (Nodes.Agree.update ?_ _) <;> simp

/-! ## Removing at the ends -/

/-- After the head moved on, its new node loses its `prev` and nothing else changes. -/
theorem fixHead_eq {ahead : Option Nat} {b : Nat} {e : α} {more : Cells α}
    (nodup : (addrs ((b, e) :: more)).Nodup) (chain : Chain m ahead ((b, e) :: more) none)
    (head : list.head = some b) (tail : list.tail = last more (some b)) :
    list.fixHead m = .ok (list, Function.update m b (some ⟨e, first more none, none⟩)) := by
  obtain ⟨here, rest⟩ := chain
  have loaded : Nodes.load (Function.update m b (some ⟨e, first more none, none⟩)) (some b) =
      .ok ⟨e, first more none, none⟩ := Nodes.load_some (Function.update_self ..)
  simp only [DataList.fixHead, head]
  rw [Nodes.store_some here, Exec.bind_ok, loaded, Exec.bind_ok]
  cases more with
  | nil =>
    rw [first_nil]
    rw [last_nil] at tail
    cases list
    simp_all
  | cons x more =>
    obtain ⟨x, f⟩ := x
    have distinct : x ≠ b := by
      rintro rfl
      simp at nodup
    have behind : Function.update m b (some ⟨e, some x, none⟩) x =
        some ⟨f, first more none, some b⟩ := by
      rw [Function.update_of_ne distinct]
      exact rest.1
    rw [first_cons]
    dsimp only
    rw [Nodes.store_same behind rfl, Exec.bind_ok]

/-- `DataList_Removehead` on an empty list. -/
theorem removehead_nil (linked : Linked m list []) :
    list.removehead m = .ok (none, list, m) := by
  have head := linked.head
  rw [first_nil] at head
  simp only [DataList.removehead, head]

/-- `DataList_Removehead` takes the first cell off. -/
theorem removehead_cons {h : Nat} {d : α} {rest : Cells α}
    (linked : Linked m list ((h, d) :: rest)) :
    ∃ list' m', list.removehead m = .ok (some d, list', m') ∧ Linked m' list' rest ∧
      Nodes.Agree (addrs ((h, d) :: rest)) m m' := by
  obtain ⟨nodup, chain, head, tail, count⟩ := linked
  obtain ⟨here, behind⟩ := chain
  obtain ⟨outside, unique⟩ := List.nodup_cons.mp nodup
  have counted : list.count - 1 = BitVec.ofNat 32 rest.length := by
    rw [count]
    exact count_pred _
  rw [first_cons] at head
  rw [last_cons] at tail
  have loaded := Nodes.load_some here
  cases rest with
  | nil =>
    refine ⟨⟨none, none, list.count - 1⟩, Function.update m h none, ?_,
      ⟨List.nodup_nil, trivial, rfl, rfl, counted⟩, Nodes.Agree.update (by simp) _⟩
    simp only [DataList.removehead, head]
    rw [loaded, Exec.bind_ok]
    show (do
      let node ← m.load (some h)
      let m ← m.free (some h)
      .ok (some node.data, { list with head := none, tail := none, count := list.count - 1 }, m) :
        Exec _) = _
    rw [loaded, Exec.bind_ok, Nodes.free_some here, Exec.bind_ok]
  | cons c more =>
    obtain ⟨b, e⟩ := c
    have distinct : h ≠ b := by
      rintro rfl
      simp at outside
    have later : b ∉ addrs more := (List.nodup_cons.mp unique).1
    have away : h ∉ addrs more := fun member => outside (List.mem_cons_of_mem _ member)
    have fixed : DataList.fixHead { list with head := some b } m = _ :=
      fixHead_eq unique behind rfl tail
    have still : Function.update m b (some ⟨e, first more none, none⟩) h =
        some ⟨d, some b, none⟩ := (Function.update_of_ne distinct _ _).trans here
    refine ⟨{ list with head := some b, count := list.count - 1 },
      Function.update (Function.update m b (some ⟨e, first more none, none⟩)) h none, ?_,
      ⟨unique, ⟨?_, ?_⟩, rfl, tail, counted⟩, ?_⟩
    · simp only [DataList.removehead, head]
      rw [loaded, Exec.bind_ok]
      simp only [first_cons]
      rw [fixed, Exec.bind_ok, Nodes.load_some still, Exec.bind_ok, Nodes.free_some still,
        Exec.bind_ok]
    · rw [Function.update_of_ne distinct.symm, Function.update_self]
    · exact (behind.2.update later _).update away _
    · exact (Nodes.Agree.update (by simp) _).trans (Nodes.Agree.update (by simp) _)

/-- After the tail moved back, its new node loses its `next` and nothing else changes. -/
theorem fixTail_eq {behind : Option Nat} {b : Nat} {e : α} {before : Cells α}
    (nodup : (addrs (before ++ [(b, e)])).Nodup) (chain : Chain m none (before ++ [(b, e)]) behind)
    (tail : list.tail = some b) (head : list.head = first before (some b)) :
    list.fixTail m = .ok (list, Function.update m b (some ⟨e, none, last before none⟩)) := by
  obtain ⟨ahead, here, _⟩ := chain_append.mp chain
  have loaded : Nodes.load (Function.update m b (some ⟨e, none, last before none⟩)) (some b) =
      .ok ⟨e, none, last before none⟩ := Nodes.load_some (Function.update_self ..)
  simp only [DataList.fixTail, tail]
  rw [Nodes.store_some here, Exec.bind_ok, loaded, Exec.bind_ok]
  rcases List.eq_nil_or_concat' before with rfl | ⟨before, ⟨x, f⟩, rfl⟩
  · rw [last_nil]
    rw [first_nil] at head
    cases list
    simp_all
  · have distinct : x ≠ b := by
      rintro rfl
      rw [addrs_append] at nodup
      have disjoint := List.disjoint_of_nodup_append nodup
      simp at disjoint
    obtain ⟨_, there, _⟩ := chain_append.mp ahead
    have before' : Function.update m b
        (some ⟨e, none, last (before ++ [(x, f)]) none⟩) x =
          some ⟨f, some b, last before none⟩ := by
      rw [Function.update_of_ne distinct]
      exact there
    rw [last_append, last_cons, last_nil] at before' ⊢
    dsimp only
    rw [Nodes.store_same before' rfl, Exec.bind_ok]

/-- `DataList_Removetail` on an empty list. -/
theorem removetail_nil (linked : Linked m list []) :
    list.removetail m = .ok (none, list, m) := by
  have tail := linked.tail
  rw [last_nil] at tail
  simp only [DataList.removetail, tail]

/-- `DataList_Removetail` takes the last cell off. -/
theorem removetail_append {t : Nat} {d : α} {rest : Cells α}
    (linked : Linked m list (rest ++ [(t, d)])) :
    ∃ list' m', list.removetail m = .ok (some d, list', m') ∧ Linked m' list' rest ∧
      Nodes.Agree (addrs (rest ++ [(t, d)])) m m' := by
  obtain ⟨nodup, chain, head, tail, count⟩ := linked
  obtain ⟨ahead, here, _⟩ := chain_append.mp chain
  rw [addrs_append] at nodup
  obtain ⟨unique, _, apart⟩ := List.nodup_append'.mp nodup
  have outside : t ∉ addrs rest := fun member => apart member (by simp)
  have counted : list.count - 1 = BitVec.ofNat 32 rest.length := by
    rw [count, List.length_append]
    exact count_pred _
  rw [last_append, last_cons, last_nil] at tail
  rw [first_append] at head
  have loaded := Nodes.load_some here
  rcases List.eq_nil_or_concat' rest with rfl | ⟨before, ⟨b, e⟩, rfl⟩
  · refine ⟨⟨none, none, list.count - 1⟩, Function.update m t none, ?_,
      ⟨List.nodup_nil, trivial, rfl, rfl, counted⟩, Nodes.Agree.update (by simp) _⟩
    simp only [DataList.removetail, tail]
    rw [loaded, Exec.bind_ok]
    show (do
      let node ← m.load (some t)
      let m ← m.free (some t)
      .ok (some node.data, { list with head := none, tail := none, count := list.count - 1 }, m) :
        Exec _) = _
    rw [loaded, Exec.bind_ok, Nodes.free_some here, Exec.bind_ok]
  · have distinct : t ≠ b := by
      rintro rfl
      simp at outside
    have earlier : b ∉ addrs before := by
      rw [addrs_append] at unique
      exact fun member => List.disjoint_of_nodup_append unique member (by simp)
    have away : t ∉ addrs before := fun member => outside (by simp [member])
    rw [first_append] at head
    have fixed : DataList.fixTail { list with tail := some b } m = _ :=
      fixTail_eq unique ahead rfl head
    have still : Function.update m b (some ⟨e, none, last before none⟩) t =
        some ⟨d, none, some b⟩ := by
      rw [Function.update_of_ne distinct, here, last_append]
      rfl
    refine ⟨{ list with tail := some b, count := list.count - 1 },
      Function.update (Function.update m b (some ⟨e, none, last before none⟩)) t none, ?_,
      ⟨unique, chain_append.mpr ⟨?_, ?_, trivial⟩, ?_, ?_, counted⟩, ?_⟩
    · simp only [DataList.removetail, tail]
      rw [loaded, Exec.bind_ok]
      simp only [last_append, last_cons, last_nil]
      rw [fixed, Exec.bind_ok, Nodes.load_some still, Exec.bind_ok, Nodes.free_some still,
        Exec.bind_ok]
    · exact ((chain_append.mp ahead).1.update earlier _).update away _
    · rw [Function.update_of_ne distinct.symm, Function.update_self]
      rfl
    · rw [first_append]
      exact head
    · simp
    · exact (Nodes.Agree.update (by simp) _).trans (Nodes.Agree.update (by simp) _)

/-! ## Removing anywhere -/

/-- `DataList_Removenode` between two neighbours links them to each other. -/
theorem removenode_between {x a y : Nat} {e d f : α} {before behind : Cells α}
    (linked : Linked m list (before ++ (x, e) :: (a, d) :: (y, f) :: behind)) :
    ∃ list' m', list.removenode m (some a) = .ok (some d, list', m') ∧
      Linked m' list' (before ++ (x, e) :: (y, f) :: behind) ∧
      Nodes.Agree (addrs (before ++ (x, e) :: (a, d) :: (y, f) :: behind)) m m' := by
  obtain ⟨nodup, chain, head, tail, count⟩ := linked
  have unique := nodup
  rw [addrs_append] at unique
  obtain ⟨front, later, apart⟩ := List.nodup_append'.mp unique
  obtain ⟨ahead, atX, atA, atY, rest⟩ := chain_append.mp chain
  rw [first_cons] at atX atA
  -- the three nodes are distinct, and none lies ahead of or behind them
  have distinct : x ≠ a ∧ x ≠ y ∧ a ≠ y := by
    simp only [addrs_cons, List.nodup_cons, List.mem_cons, not_or] at later
    exact ⟨later.1.1, later.1.2.1, later.2.1.1⟩
  obtain ⟨xa, xy, ay⟩ := distinct
  have later' : x ∉ addrs behind ∧ a ∉ addrs behind ∧ y ∉ addrs behind := by
    simp only [addrs_cons, List.nodup_cons, List.mem_cons, not_or] at later
    exact ⟨later.1.2.2, later.2.1.2, later.2.2.1⟩
  have earlier : x ∉ addrs before ∧ a ∉ addrs before ∧ y ∉ addrs before :=
    ⟨fun member => apart member (by simp), fun member => apart member (by simp),
      fun member => apart member (by simp)⟩
  have notHead : some a ≠ list.head := by
    rw [head, first_append]
    cases before with
    | nil => exact fun same => xa (Option.some.inj same).symm
    | cons c before =>
      exact fun same => earlier.2.1 (List.mem_cons.mpr (.inl (Option.some.inj same)))
  have notTail : some a ≠ list.tail := by
    rw [tail, last_append]
    simp only [last_cons]
    rcases List.eq_nil_or_concat' behind with rfl | ⟨behind, ⟨t, _⟩, rfl⟩
    · exact fun same => ay (Option.some.inj same)
    · rw [last_append]
      exact fun same => later'.2.1 (by simp [Option.some.inj same])
  let m₁ : Nodes α := Function.update m x (some ⟨e, some y, last before none⟩)
  let m₂ : Nodes α := Function.update m₁ y (some ⟨f, first behind none, some x⟩)
  have a₁ : m₁ a = some ⟨d, some y, some x⟩ := by simp [m₁, xa.symm, atA]
  have y₁ : m₁ y = some ⟨f, first behind none, some a⟩ := by simp [m₁, xy.symm, atY]
  have a₂ : m₂ a = some ⟨d, some y, some x⟩ := by simp [m₂, ay, a₁]
  have stored₁ : m.store (some x) (fun p => { p with next := some y }) = .ok m₁ :=
    Nodes.store_some atX _
  have stored₂ : m₁.store (some y) (fun p => { p with prev := some x }) = .ok m₂ :=
    Nodes.store_some y₁ _
  refine ⟨{ list with count := list.count - 1 }, Function.update m₂ a none, ?_,
    ⟨?_, chain_append.mpr ⟨?_, ?_, ?_, ?_⟩, ?_, ?_, ?_⟩, ?_⟩
  · rw [DataList.removenode, if_neg notHead, if_neg notTail, Nodes.load_some atA, Exec.bind_ok,
      stored₁, Exec.bind_ok, Nodes.load_some a₁, Exec.bind_ok, stored₂, Exec.bind_ok,
      Nodes.load_some a₂, Exec.bind_ok, Nodes.free_some a₂, Exec.bind_ok]
  · refine List.Nodup.sublist ?_ nodup
    simp only [addrs_append, addrs_cons]
    exact (List.Sublist.refl _).append ((List.sublist_cons_self a _).cons_cons x)
  · exact ((ahead.update earlier.1 _).update earlier.2.2 _).update earlier.2.1 _
  · simp [m₂, m₁, xa, xy]
  · simp [m₂, ay.symm]
  · exact ((rest.update later'.1 _).update later'.2.2 _).update later'.2.1 _
  · rw [head]
    simp
  · rw [tail]
    simp
  · rw [count]
    simp only [List.length_append, List.length_cons, ← Nat.add_assoc]
    exact count_pred _
  · refine ((Nodes.Agree.update ?_ _).trans (Nodes.Agree.update ?_ _)).trans
      (Nodes.Agree.update ?_ _) <;> simp

/-- `DataList_Removenode` takes a cell out. -/
theorem removenode_linked {a : Nat} {d : α} {before behind : Cells α}
    (linked : Linked m list (before ++ (a, d) :: behind)) :
    ∃ list' m', list.removenode m (some a) = .ok (some d, list', m') ∧
      Linked m' list' (before ++ behind) ∧
      Nodes.Agree (addrs (before ++ (a, d) :: behind)) m m' := by
  rcases List.eq_nil_or_concat' before with rfl | ⟨before, ⟨x, e⟩, rfl⟩
  · obtain ⟨list', m', removed, left, agree⟩ := removehead_cons linked
    refine ⟨list', m', ?_, left, agree⟩
    have head : some a = list.head := linked.head.symm
    rw [DataList.removenode, if_pos head, removed]
  rcases behind with _ | ⟨⟨y, f⟩, behind⟩
  · obtain ⟨list', m', removed, left, agree⟩ := removetail_append linked
    refine ⟨list', m', ?_, by rwa [List.append_nil], agree⟩
    have notHead : some a ≠ list.head := by
      have unique := linked.nodup
      rw [addrs_append] at unique
      have apart := List.disjoint_of_nodup_append unique
      rw [linked.head, first_append]
      cases before with
      | nil => exact fun same => apart (by simp [Option.some.inj same]) List.mem_cons_self
      | cons c before =>
        exact fun same => apart (List.mem_cons.mpr (.inl (Option.some.inj same))) List.mem_cons_self
    have last : some a = list.tail := by
      rw [linked.tail, last_append]
      rfl
    rw [DataList.removenode, if_neg notHead, if_pos last, removed]
  · have shape : ∀ rest : Cells α, before ++ [(x, e)] ++ rest = before ++ (x, e) :: rest :=
      fun rest => List.append_assoc before [(x, e)] rest
    rw [shape] at linked
    rw [shape, shape]
    exact removenode_between linked

/-- `DataList_Clear` ends, with no cells left. -/
theorem clear_linked (linked : Linked m list cells) {fuel : Nat} (enough : cells.length < fuel) :
    ∃ list' m', list.clear fuel m = .ok (list', m') ∧ Linked m' list' [] ∧
      Nodes.Agree (addrs cells) m m' := by
  induction cells using List.reverseRecOn generalizing list m fuel with
  | nil =>
    obtain ⟨fuel, rfl⟩ := Nat.exists_eq_succ_of_ne_zero (Nat.ne_of_gt enough)
    have head := linked.head
    rw [first_nil] at head
    refine ⟨list, m, ?_, linked, Nodes.Agree.refl _ _⟩
    simp only [DataList.clear, head]
  | append_singleton rest c ih =>
    obtain ⟨t, d⟩ := c
    rw [List.length_append] at enough
    obtain ⟨fuel, rfl⟩ := Nat.exists_eq_succ_of_ne_zero (Nat.ne_of_gt (Nat.zero_lt_of_lt enough))
    obtain ⟨list₁, m₁, removed, left, agree₁⟩ := removetail_append linked
    obtain ⟨list', m', cleared, empty, agree₂⟩ := ih left (Nat.lt_of_succ_lt_succ enough)
    refine ⟨list', m', ?_, empty, agree₁.trans (agree₂.mono fun a member => by simp [member])⟩
    have head : list.head ≠ none := by
      rw [linked.head, first_append]
      cases rest with
      | nil => exact Option.some_ne_none t
      | cons c rest => exact Option.some_ne_none c.1
    obtain ⟨h, found⟩ := Option.ne_none_iff_exists'.mp head
    simp only [DataList.clear, found]
    rw [removed, Exec.bind_ok, cleared]

/-! ## Finding -/

/-- The loop of `DataList_Find` stops at the first cell that compares equal, or at the end. -/
theorem findLoop_chain {p : Option Nat} (chain : Chain m p cells none) (cmpfun : α → Int)
    {fuel : Nat} (enough : cells.length < fuel) :
    DataList.findLoop m cmpfun fuel (first cells none) =
      .ok ((cells.find? fun c => cmpfun c.2 = 0).map Prod.fst) := by
  induction cells generalizing p fuel with
  | nil =>
    obtain ⟨fuel, rfl⟩ := Nat.exists_eq_succ_of_ne_zero (Nat.ne_of_gt enough)
    rfl
  | cons c cells ih =>
    obtain ⟨a, d⟩ := c
    obtain ⟨here, rest⟩ := chain
    obtain ⟨fuel, rfl⟩ := Nat.exists_eq_succ_of_ne_zero (Nat.ne_of_gt (Nat.zero_lt_of_lt enough))
    simp only [first_cons, DataList.findLoop]
    rw [Nodes.load_some here, Exec.bind_ok, List.find?_cons]
    by_cases equal : cmpfun d = 0
    · simp [equal]
    · rw [if_neg equal, ih rest (Nat.lt_of_succ_lt_succ enough)]
      simp [equal]

end EpollNet
