import Mathlib.Data.List.Induction
import Mathlib.Data.List.Nodup
import Mathlib.Logic.Function.Basic

/-!
# Doubly linked nodes on a heap

A heap of nodes, each with a datum and the addresses of its neighbours. Reading or writing through
a null pointer or at an address that is not allocated is a fault, and a loop that has not ended is
told from one that has. `Chain` says that given cells lie in memory one behind the other, linked
both ways; it splits over an append and depends on the addresses of its own cells only, which is
what surgery on a list and lists side by side in one memory need.
-/

namespace EpollNet.Basis

/-! ## Memory -/

/-- A node. -/
structure Node (α : Type) where
  /-- Its datum. -/
  data : α
  /-- The node behind it. -/
  next : Option Nat
  /-- The node ahead of it. -/
  prev : Option Nat
deriving DecidableEq

/-- Nodes by address; an address without one is not allocated. -/
abbrev Nodes (α : Type) := Nat → Option (Node α)

/-- Why a computation on the heap gave no result. -/
inductive Halt where
  /-- A null pointer or one to no node was followed. -/
  | fault
  /-- A loop has not ended. -/
  | looping
deriving DecidableEq

/-- A computation on the heap. -/
abbrev Exec (β : Type) := Except Halt β

/-- A computation that has a result goes on with it. -/
@[simp] theorem Exec.bind_ok {β γ : Type} (b : β) (next : β → Exec γ) :
    ((.ok b : Exec β) >>= next) = next b := rfl

namespace Nodes

variable {α : Type}

/-- Read a node. -/
def load (m : Nodes α) : Option Nat → Exec (Node α)
  | none => .error .fault
  | some a =>
    match m a with
    | none => .error .fault
    | some n => .ok n

/-- Write to a node. -/
def store (m : Nodes α) (p : Option Nat) (change : Node α → Node α) : Exec (Nodes α) :=
  match p with
  | none => .error .fault
  | some a =>
    match m a with
    | none => .error .fault
    | some n => .ok (Function.update m a (some (change n)))

/-- Give a node back. -/
def free (m : Nodes α) (p : Option Nat) : Exec (Nodes α) :=
  match p with
  | none => .error .fault
  | some a =>
    match m a with
    | none => .error .fault
    | some _ => .ok (Function.update m a none)

variable {m : Nodes α} {a : Nat} {n : Node α}

/-- An address with a node loads it. -/
theorem load_some (here : m a = some n) : m.load (some a) = .ok n := by
  simp only [load, here]

/-- A node that is there is changed in place. -/
theorem store_some (here : m a = some n) (change : Node α → Node α) :
    m.store (some a) change = .ok (Function.update m a (some (change n))) := by
  simp only [store, here]

/-- A node that is there is gone once it is freed. -/
theorem free_some (here : m a = some n) :
    m.free (some a) = .ok (Function.update m a none) := by
  simp only [free, here]

/-- A write that changes nothing. -/
theorem store_same (here : m a = some n) {change : Node α → Node α} (same : change n = n) :
    m.store (some a) change = .ok m := by
  rw [store_some here, same, ← here, Function.update_eq_self]

/-- The same nodes outside some addresses. -/
def Agree (own : List Nat) (m m' : Nodes α) : Prop := ∀ a, a ∉ own → m' a = m a

/-- Nothing has changed yet. -/
theorem Agree.refl (own : List Nat) (m : Nodes α) : Agree own m m := fun _ _ => rfl

/-- Changes of the same nodes, one after the other. -/
theorem Agree.trans {own : List Nat} {m m' m'' : Nodes α} (first : Agree own m m')
    (second : Agree own m' m'') : Agree own m m'' :=
  fun a outside => (second a outside).trans (first a outside)

/-- A change at one of the addresses. -/
theorem Agree.update {own : List Nat} (inside : a ∈ own) (new : Option (Node α)) :
    Agree own m (Function.update m a new) := by
  intro b outside
  have distinct : b ≠ a := by
    rintro rfl
    exact outside inside
  exact Function.update_of_ne distinct _ _

/-- Fewer addresses tell more. -/
theorem Agree.mono {own more : List Nat} {m' : Nodes α} (agree : Agree own m m')
    (sub : ∀ a ∈ own, a ∈ more) : Agree more m m' :=
  fun a outside => agree a fun inside => outside (sub a inside)

end Nodes

/-! ## Chains -/

/-- Cells: addresses and what their nodes hold. -/
abbrev Cells (α : Type) := List (Nat × α)

namespace Cells

variable {α : Type}

/-- The addresses. -/
def addrs (cells : Cells α) : List Nat := cells.map Prod.fst

/-- The data. -/
def data (cells : Cells α) : List α := cells.map Prod.snd

/-- The first address, or the one given. -/
def first (cells : Cells α) (behind : Option Nat) : Option Nat :=
  match cells with
  | [] => behind
  | (a, _) :: _ => some a

/-- The last address, or the one given. -/
def last (cells : Cells α) (ahead : Option Nat) : Option Nat :=
  match cells with
  | [] => ahead
  | (a, _) :: rest => last rest (some a)

/-- No cells have no addresses. -/
@[simp] theorem addrs_nil : addrs ([] : Cells α) = [] := rfl

/-- The first cell's address comes first. -/
@[simp] theorem addrs_cons (c : Nat × α) (cells : Cells α) :
    addrs (c :: cells) = c.1 :: addrs cells := rfl

/-- The addresses of cells in a row. -/
@[simp] theorem addrs_append (xs ys : Cells α) : addrs (xs ++ ys) = addrs xs ++ addrs ys :=
  List.map_append

/-- No cells have no data. -/
@[simp] theorem data_nil : data ([] : Cells α) = [] := rfl

/-- The first cell's datum comes first. -/
@[simp] theorem data_cons (c : Nat × α) (cells : Cells α) :
    data (c :: cells) = c.2 :: data cells := rfl

/-- The data of cells in a row. -/
@[simp] theorem data_append (xs ys : Cells α) : data (xs ++ ys) = data xs ++ data ys :=
  List.map_append

/-- Without cells the first is what follows them. -/
@[simp] theorem first_nil (p : Option Nat) : first ([] : Cells α) p = p := rfl

/-- The first of some cells is the one in front. -/
@[simp] theorem first_cons (a : Nat) (d : α) (cells : Cells α) (p : Option Nat) :
    first ((a, d) :: cells) p = some a := rfl

/-- Without cells the last is what precedes them. -/
@[simp] theorem last_nil (p : Option Nat) : last ([] : Cells α) p = p := rfl

/-- The last of some cells is that of the others, or the only one. -/
@[simp] theorem last_cons (a : Nat) (d : α) (cells : Cells α) (p : Option Nat) :
    last ((a, d) :: cells) p = last cells (some a) := rfl

/-- The first of cells in a row. -/
@[simp] theorem first_append (xs ys : Cells α) (p : Option Nat) :
    first (xs ++ ys) p = first xs (first ys p) := by
  cases xs <;> rfl

/-- The last of cells in a row. -/
@[simp] theorem last_append (xs ys : Cells α) (p : Option Nat) :
    last (xs ++ ys) p = last ys (last xs p) := by
  induction xs generalizing p with
  | nil => rfl
  | cons c xs ih => exact ih (some c.1)

end Cells

open Cells

/-- The cells lie in memory linked one behind the other, the first behind `ahead` and the last
ahead of `behind`. -/
def Chain {α : Type} (m : Nodes α) (ahead : Option Nat) (cells : Cells α)
    (behind : Option Nat) : Prop :=
  match cells with
  | [] => True
  | (a, d) :: rest => m a = some ⟨d, Cells.first rest behind, ahead⟩ ∧ Chain m (some a) rest behind

variable {α : Type} {m m' : Nodes α} {p q : Option Nat} {cells xs ys : Cells α} {a : Nat} {d : α}

/-- No cells are always linked. -/
@[simp] theorem chain_nil : Chain m p [] q := trivial

/-- A cell is linked to its neighbours, and the others behind it. -/
@[simp] theorem chain_cons : Chain m p ((a, d) :: cells) q ↔
    m a = some ⟨d, cells.first q, p⟩ ∧ Chain m (some a) cells q := Iff.rfl

/-- A chain is two chains that name each other's ends. -/
theorem chain_append : Chain m p (xs ++ ys) q ↔
    Chain m p xs (ys.first q) ∧ Chain m (xs.last p) ys q := by
  induction xs generalizing p with
  | nil => simp
  | cons c xs ih =>
    rw [List.cons_append, chain_cons, chain_cons, ih, first_append, and_assoc]
    rfl

/-- A chain lies where its cells lie. -/
theorem Chain.agree (chain : Chain m p cells q) (agree : ∀ a ∈ cells.addrs, m' a = m a) :
    Chain m' p cells q := by
  induction cells generalizing p with
  | nil => trivial
  | cons c cells ih =>
    obtain ⟨here, rest⟩ := chain
    exact ⟨(agree c.1 List.mem_cons_self).trans here,
      ih rest fun a member => agree a (List.mem_cons_of_mem _ member)⟩

/-- A change elsewhere leaves a chain. -/
theorem Chain.update (chain : Chain m p cells q) (outside : a ∉ cells.addrs)
    (new : Option (Node α)) : Chain (Function.update m a new) p cells q :=
  chain.agree fun b member => by
    have distinct : b ≠ a := by
      rintro rfl
      exact outside member
    exact Function.update_of_ne distinct _ _

/-- A change to other memory leaves a chain. -/
theorem Chain.apart (chain : Chain m p cells q) {own : List Nat} (agree : Nodes.Agree own m m')
    (disjoint : ∀ a ∈ cells.addrs, a ∉ own) : Chain m' p cells q :=
  chain.agree fun a member => agree a (disjoint a member)

/-- Every cell of a chain is allocated. -/
theorem Chain.allocated (chain : Chain m p cells q) (member : a ∈ cells.addrs) :
    (m a).isSome = true := by
  induction cells generalizing p with
  | nil => contradiction
  | cons c cells ih =>
    obtain ⟨here, rest⟩ := chain
    rcases List.mem_cons.mp member with rfl | later
    · rw [here]
      rfl
    · exact ih rest later

/-- The nodes of a chain hold its data. -/
theorem Chain.contents (chain : Chain m p cells q) :
    cells.addrs.map (fun a => (m a).map Node.data) = cells.data.map some := by
  induction cells generalizing p with
  | nil => rfl
  | cons c cells ih =>
    obtain ⟨here, rest⟩ := chain
    rw [addrs_cons, data_cons, List.map_cons, List.map_cons, ih rest, here]
    rfl

/-! ## Walking a chain -/

/-- Following one of the two links from a pointer visits these nodes and ends at null. -/
def Walk (m : Nodes α) (link : Node α → Option Nat) (start : Option Nat) :
    List Nat → Prop
  | [] => start = none
  | a :: rest => start = some a ∧ ∃ n, m a = some n ∧ Walk m link (link n) rest

/-- Following `next` from the first cell visits the cells. -/
theorem Chain.forward (chain : Chain m p cells none) :
    Walk m Node.next (cells.first none) cells.addrs := by
  induction cells generalizing p with
  | nil => rfl
  | cons c cells ih =>
    obtain ⟨here, rest⟩ := chain
    exact ⟨rfl, _, here, ih rest⟩

/-- Following `prev` from the last cell visits them the other way round. -/
theorem Chain.backward (chain : Chain m none cells q) :
    Walk m Node.prev (cells.last none) cells.addrs.reverse := by
  induction cells using List.reverseRecOn generalizing q with
  | nil => rfl
  | append_singleton cells c ih =>
    obtain ⟨before, here, _⟩ := chain_append.mp chain
    rw [addrs_append, List.reverse_append]
    refine ⟨?_, _, here, ih before⟩
    rw [last_append]
    rfl

end EpollNet.Basis
