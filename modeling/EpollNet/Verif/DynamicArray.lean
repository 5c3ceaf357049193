import EpollNet.Basis.Calls
import EpollNet.Net.DynamicArray

/-!
# A dynamic array is a stack with random access

The live elements lie as records in the block, and the block has room for the capacity. While the
byte counts fit an `unsigned int` no product wraps, so every slot is where its number says and
growing copies every live element.
-/

namespace EpollNet

open EpollNet.Basis

/-! ## The stack -/

/-- What a dynamic array stands for. -/
structure SlotStack where
  /-- Address of the first slot. -/
  item : Nat
  /-- Number of slots. -/
  capacity : Nat
  /-- The live elements in the order they were pushed. -/
  elems : List (List UInt8)

namespace SlotStack

/-- An element is pushed. -/
def push (stack : SlotStack) (width : Nat) (element : List UInt8) : SlotSeen × SlotStack :=
  (some (stack.item + width * stack.elems.length, element),
    { stack with elems := stack.elems ++ [element] })

end SlotStack

/-- A call on a stack of elements of a size. A full stack doubles its capacity, at the address
`realloc` answers with, or stays as it is. -/
def ArrayOp.onStack (width : Nat) : ArrayOp → SlotStack → SlotSeen × SlotStack
  | .push answer element, stack =>
    if stack.elems.length = stack.capacity then
      match answer with
      | none => (none, stack)
      | some (item, _) => SlotStack.push ⟨item, stack.capacity * 2, stack.elems⟩ width element
    else stack.push width element
  | .pop, stack =>
    (stack.elems.getLast?.map fun element =>
        (stack.item + width * (stack.elems.length - 1), element),
      { stack with elems := stack.elems.dropLast })
  | .value index, stack =>
    (stack.elems[index.toNat]?.map fun element =>
      (stack.item + width * index.toNat, element), stack)

/-- The caller fills the slot, and a `realloc` that gives a block is asked for a byte count that
fits an `unsigned int` and keeps the contents of the old block. -/
def ArrayOp.Granted : ArrayOp → DynamicArray × Bytes → Prop
  | .push answer element, (array, m) => element.length = array.size.toNat ∧
      (array.nitem = array.nmalloc → ∀ item m', answer = some (item, m') →
        2 * (array.size.toNat * array.nmalloc.toNat) < 2 ^ 32 ∧
        ∀ i < array.size.toNat * array.nmalloc.toNat, m' (item + i) = m (array.item + i))
  | _, _ => True

/-! ## Slots -/

variable {array : DynamicArray} {m m' : Bytes} {width : Nat} {stack : SlotStack}

namespace DynamicArray

/-- A slot is where its number says if the offset fits an `unsigned int`. -/
theorem slot_eq {i : BitVec 32} (fits : array.size.toNat * i.toNat < 2 ^ 32) :
    array.slot i = array.item + array.size.toNat * i.toNat := by
  rw [slot, BitVec.toNat_mul, Nat.mod_eq_of_lt fits]

/-- The array and the memory stand for a stack. -/
structure Stands (width : Nat) (array : DynamicArray) (m : Bytes) (stack : SlotStack) : Prop where
  /-- The size of an element. -/
  size : array.size.toNat = width
  /-- An element has bytes. -/
  sized : 1 ≤ width
  /-- The first slot. -/
  item : array.item = stack.item
  /-- The number of slots. -/
  nmalloc : array.nmalloc.toNat = stack.capacity
  /-- There are slots. -/
  counted : 1 ≤ stack.capacity
  /-- Their byte count fits. -/
  fits : width * stack.capacity < 2 ^ 32
  /-- It was requested. -/
  requested : array.requested.toNat = width * stack.capacity
  /-- The number of live elements. -/
  nitem : array.nitem.toNat = stack.elems.length
  /-- They have slots. -/
  room : stack.elems.length ≤ stack.capacity
  /-- They lie in their slots. -/
  records : Records m stack.item width stack.elems

/-- A slot up to the number of live elements is where its number says. -/
theorem Stands.slot (stands : Stands width array m stack) {i : BitVec 32}
    (inside : i.toNat ≤ stack.elems.length) : array.slot i = stack.item + width * i.toNat := by
  have most : width * i.toNat ≤ width * stack.capacity :=
    Nat.mul_le_mul_left width (inside.trans stands.room)
  have fits := stands.fits
  have small : array.size.toNat * i.toNat < 2 ^ 32 := by
    rw [stands.size]
    omega
  rw [slot_eq small, stands.size, stands.item]

/-- The contents of a live slot. -/
theorem Stands.seen (stands : Stands width array m stack) {i : BitVec 32} {element : List UInt8}
    (found : stack.elems[i.toNat]? = some element) :
    array.seen m (some (array.slot i)) = some (stack.item + width * i.toNat, element) := by
  have inside := (List.getElem?_eq_some_iff.mp found).1
  have contents := stands.records i.toNat element found
  rw [DynamicArray.seen, Option.map_some, stands.slot (Nat.le_of_lt inside), stands.size, contents]

/-! ## One call -/

/-- `dynamicArray_push` with room for another element. -/
theorem Stands.take (stands : Stands width array m stack)
    (room : stack.elems.length < stack.capacity) {element : List UInt8}
    (length : element.length = width) :
    ∃ array' m', array.take = (stack.item + width * stack.elems.length, array') ∧
      m' = writeAt m (stack.item + width * stack.elems.length) element ∧
      array'.seen m' (some (stack.item + width * stack.elems.length)) =
        (stack.push width element).1 ∧
      Stands width array' m' (stack.push width element).2 := by
  have bound := array.nmalloc.isLt
  have capacity := stands.nmalloc
  have next : (array.nitem + 1).toNat = stack.elems.length + 1 := by
    have one : (1 : BitVec 32).toNat = 1 := rfl
    rw [BitVec.toNat_add, stands.nitem, one, Nat.mod_eq_of_lt]
    omega
  have address := stands.slot (Nat.le_of_eq stands.nitem)
  rw [stands.nitem] at address
  refine ⟨{ array with nitem := array.nitem + 1 }, _, ?_, rfl, ?_, ?_⟩
  · rw [DynamicArray.take, address]
  · have sameSize : array.size.toNat = element.length := stands.size.trans length.symm
    rw [DynamicArray.seen, Option.map_some, sameSize, readAt_writeAt]
    rfl
  · refine { stands with nitem := ?_, room := ?_, records := ?_ }
    · rw [next, SlotStack.push, List.length_append]
      rfl
    · rw [SlotStack.push, List.length_append]
      exact room
    · exact stands.records.append length

/-- A block twice the size, with the contents of the old one. -/
theorem Stands.grow (stands : Stands width array m stack) {item : Nat}
    (fits : 2 * (width * stack.capacity) < 2 ^ 32)
    (copied : ∀ i < width * stack.capacity, m' (item + i) = m (stack.item + i)) :
    Stands width (array.grow item) m' ⟨item, stack.capacity * 2, stack.elems⟩ := by
  have sized := stands.sized
  have bytes : width * (stack.capacity * 2) = 2 * (width * stack.capacity) := by
    rw [← Nat.mul_assoc, Nat.mul_comm]
  have slots : stack.capacity * 2 < 2 ^ 32 := by
    have more : stack.capacity * 2 ≤ width * (stack.capacity * 2) := Nat.le_mul_of_pos_left _ sized
    omega
  have two : (2 : BitVec 32).toNat = 2 := rfl
  refine { stands with item := rfl, nmalloc := ?_, counted := ?_, fits := ?_, requested := ?_,
                       room := ?_, records := ?_ }
  · show (array.nmalloc * 2).toNat = stack.capacity * 2
    rw [BitVec.toNat_mul, stands.nmalloc, two, Nat.mod_eq_of_lt slots]
  · have counted := stands.counted
    show 1 ≤ stack.capacity * 2
    omega
  · rw [bytes]
    exact fits
  · have old : (array.size * array.nmalloc).toNat = width * stack.capacity := by
      rw [BitVec.toNat_mul, stands.size, stands.nmalloc, Nat.mod_eq_of_lt stands.fits]
    show (2 * (array.size * array.nmalloc)).toNat = width * (stack.capacity * 2)
    rw [BitVec.toNat_mul, old, two, Nat.mod_eq_of_lt fits, bytes]
  · have room := stands.room
    show stack.elems.length ≤ stack.capacity * 2
    omega
  · refine stands.records.move fun i inside => copied i ?_
    exact lt_of_lt_of_le inside (Nat.mul_le_mul_left width stands.room)

/-- `dynamicArray_push` with the filling of its slot. -/
theorem Stands.push (stands : Stands width array m stack) {answer : Option (Nat × Bytes)}
    {element : List UInt8} (granted : (ArrayOp.push answer element).Granted (array, m)) :
    ∃ array' m', DynamicArray.call (.push answer element) (array, m) =
        .ok (((ArrayOp.push answer element).onStack width stack).1, array', m') ∧
      Stands width array' m' ((ArrayOp.push answer element).onStack width stack).2 := by
  obtain ⟨length, realloc⟩ := granted
  rw [stands.size] at length realloc
  by_cases full : array.nitem = array.nmalloc
  · have full' : stack.elems.length = stack.capacity := by
      rw [← stands.nitem, full, stands.nmalloc]
    cases answer with
    | none =>
      refine ⟨array, m, ?_, ?_⟩
      · simp only [DynamicArray.call, dynamicArrayPush, if_pos full, ArrayOp.onStack, if_pos full']
      · simp only [ArrayOp.onStack, if_pos full']
        exact stands
    | some block =>
      obtain ⟨item, m₁⟩ := block
      obtain ⟨fits, copied⟩ := realloc full item m₁ rfl
      rw [stands.nmalloc] at fits copied
      rw [stands.item] at copied
      have grown := stands.grow fits copied
      have counted := stands.counted
      have room : stack.elems.length < stack.capacity * 2 := by omega
      obtain ⟨array', m', taken, written, seen, stands'⟩ := grown.take room length
      refine ⟨array', m', ?_, ?_⟩
      · simp only [DynamicArray.call, dynamicArrayPush, if_pos full, ArrayOp.onStack, if_pos full',
          taken, ← written, seen]
      · simp only [ArrayOp.onStack, if_pos full']
        exact stands'
  · have spare : ¬stack.elems.length = stack.capacity := by
      intro same
      exact full (BitVec.eq_of_toNat_eq (by rw [stands.nitem, stands.nmalloc, same]))
    have room := lt_of_le_of_ne stands.room spare
    obtain ⟨array', m', taken, written, seen, stands'⟩ := stands.take room length
    refine ⟨array', m', ?_, ?_⟩
    · simp only [DynamicArray.call, dynamicArrayPush, if_neg full, ArrayOp.onStack, if_neg spare,
        taken, ← written, seen]
    · simp only [ArrayOp.onStack, if_neg spare]
      exact stands'

/-- The array is empty if the stack is. -/
theorem Stands.nitem_pos (stands : Stands width array m stack) :
    array.nitem > 0 ↔ 0 < stack.elems.length := by
  rw [← stands.nitem]
  exact Iff.rfl

/-- One element fewer. -/
theorem Stands.nitem_pred (stands : Stands width array m stack)
    (positive : 0 < stack.elems.length) :
    (array.nitem - 1).toNat = stack.elems.length - 1 := by
  have bound := array.nitem.isLt
  have count := stands.nitem
  have one : (1 : BitVec 32).toNat = 1 := rfl
  rw [BitVec.toNat_sub, one]
  omega

/-- A slot returned, and what lies in it. -/
theorem Stands.seen_at (stands : Stands width array m stack) (i : BitVec 32)
    (inside : i.toNat < stack.elems.length) :
    array.seen m (some (array.slot i)) =
      stack.elems[i.toNat]?.map fun element => (stack.item + width * i.toNat, element) := by
  have found := List.getElem?_eq_getElem inside
  rw [stands.seen found, found]
  rfl

/-- `dynamicArray_pop`. -/
theorem Stands.pop (stands : Stands width array m stack) :
    ∃ array', DynamicArray.call .pop (array, m) =
        .ok ((ArrayOp.pop.onStack width stack).1, array', m) ∧
      Stands width array' m (ArrayOp.pop.onStack width stack).2 := by
  have lengths : stack.elems.dropLast.length = stack.elems.length - 1 := List.length_dropLast
  have last : stack.elems.getLast? = stack.elems[stack.elems.length - 1]? :=
    List.getLast?_eq_getElem?
  by_cases positive : array.nitem > 0
  · have positive' := stands.nitem_pos.mp positive
    have count := stands.nitem_pred positive'
    refine ⟨{ array with nitem := array.nitem - 1 }, ?_, ?_⟩
    · have seen := stands.seen_at (array.nitem - 1) (by omega)
      rw [count] at seen
      simp only [DynamicArray.call, dynamicArrayPop, if_pos positive, ArrayOp.onStack, last]
      exact congrArg (fun seen => Except.ok (seen, _, m)) seen
    · have room := stands.room
      refine { stands with nitem := count.trans lengths.symm, room := ?_, records := ?_ }
      · show stack.elems.dropLast.length ≤ stack.capacity
        omega
      · exact stands.records.first (List.dropLast_prefix _)
  · have empty : stack.elems = [] := by
      refine List.eq_nil_of_length_eq_zero ?_
      have none_live := mt stands.nitem_pos.mpr positive
      omega
    refine ⟨array, ?_, ?_⟩
    · simp only [DynamicArray.call, dynamicArrayPop, if_neg positive, ArrayOp.onStack, empty]
      rfl
    · have same : (ArrayOp.pop.onStack width stack).2 = stack := by
        obtain ⟨item, capacity, elems⟩ := stack
        obtain rfl : elems = [] := empty
        rfl
      rw [same]
      exact stands

/-- `dynamicArray_value`. -/
theorem Stands.value (stands : Stands width array m stack) (index : BitVec 32) :
    array.seen m (dynamicArrayValue array index) =
      stack.elems[index.toNat]?.map fun element => (stack.item + width * index.toNat, element) := by
  have count := stands.nitem
  by_cases inside : index < array.nitem
  · have inside' : index.toNat < array.nitem.toNat := inside
    rw [dynamicArrayValue, if_pos inside]
    exact stands.seen_at index (by omega)
  · have beyond : ¬index.toNat < array.nitem.toNat := inside
    rw [dynamicArrayValue, if_neg inside, List.getElem?_eq_none (by omega)]
    rfl

/-- A call on the array is a call on the stack. -/
theorem Stands.call (op : ArrayOp) (object : DynamicArray × Bytes) (stack : SlotStack)
    (stands : Stands width object.1 object.2 stack) (granted : op.Granted object) :
    ∃ object', DynamicArray.call op object = .ok ((op.onStack width stack).1, object') ∧
      Stands width object'.1 object'.2 (op.onStack width stack).2 := by
  obtain ⟨array, m⟩ := object
  cases op with
  | push answer element =>
    obtain ⟨array', m', called, stands'⟩ := stands.push granted
    exact ⟨(array', m'), called, stands'⟩
  | pop =>
    obtain ⟨array', called, stands'⟩ := stands.pop
    exact ⟨(array', m), called, stands'⟩
  | value index =>
    have seen := stands.value index
    exact ⟨(array, m), congrArg (fun seen => Except.ok (seen, array, m)) seen, stands⟩

/-! ## From the start -/

variable {ncount itemsize : BitVec 32} {granted : Bool} {answer : Option Nat}

/-- A new array is an empty stack. -/
theorem stands_init (counted : 1 ≤ ncount.toNat) (sized : 1 ≤ itemsize.toNat)
    (fits : itemsize.toNat * ncount.toNat < 2 ^ 32)
    (made : dynamicArrayInit ncount itemsize granted answer = some array) (m : Bytes) :
    Stands itemsize.toNat array m ⟨array.item, ncount.toNat, []⟩ := by
  obtain ⟨item, rfl⟩ := dynamicArrayInit_some made
  refine ⟨rfl, sized, rfl, rfl, counted, fits, ?_, rfl, Nat.zero_le _, records_nil _ _ _⟩
  rw [BitVec.toNat_mul, Nat.mul_comm, Nat.mod_eq_of_lt fits]

/-- After any calls the array stands for the stack. -/
theorem stands_calls (counted : 1 ≤ ncount.toNat) (sized : 1 ≤ itemsize.toNat)
    (fits : itemsize.toNat * ncount.toNat < 2 ^ 32)
    (made : dynamicArrayInit ncount itemsize granted answer = some array) {ops : List ArrayOp}
    (permitted : Permitted DynamicArray.call ArrayOp.Granted ops (array, m)) :
    ∃ array' m', calls DynamicArray.call ops (array, m) =
        .ok ((meaning (ArrayOp.onStack itemsize.toNat) ops
          ⟨array.item, ncount.toNat, []⟩).1, array', m') ∧
      Stands itemsize.toNat array' m' (meaning (ArrayOp.onStack itemsize.toNat) ops
        ⟨array.item, ncount.toNat, []⟩).2 := by
  obtain ⟨⟨array', m'⟩, called, stands⟩ :=
    calls_refine (fun _ object stack => Stands itemsize.toNat object.1 object.2 stack)
      (fun _ op object stack stands granted => stands.call op object stack granted)
      (stands_init counted sized fits made m) permitted
  exact ⟨array', m', called, stands⟩

end DynamicArray

open DynamicArray

/-- Any calls on a new array return what the stack returns, and leave the array standing for the
stack. A push that finds the array full and is refused a block leaves everything as it is. -/
theorem array_refines_stack (ncount itemsize : BitVec 32) (counted : 1 ≤ ncount.toNat)
    (sized : 1 ≤ itemsize.toNat) (fits : itemsize.toNat * ncount.toNat < 2 ^ 32)
    (made : dynamicArrayInit ncount itemsize granted answer = some array) (m : Bytes)
    (ops : List ArrayOp) (permitted : Permitted DynamicArray.call ArrayOp.Granted ops (array, m)) :
    ∃ array' m', calls DynamicArray.call ops (array, m) =
        .ok ((meaning (ArrayOp.onStack itemsize.toNat) ops
          ⟨array.item, ncount.toNat, []⟩).1, array', m') ∧
      Stands itemsize.toNat array' m' (meaning (ArrayOp.onStack itemsize.toNat) ops
        ⟨array.item, ncount.toNat, []⟩).2 ∧
      ∀ element, array'.nitem = array'.nmalloc →
        DynamicArray.call (.push none element) (array', m') = .ok (none, array', m') := by
  obtain ⟨array', m', called, stands⟩ := stands_calls counted sized fits made permitted
  refine ⟨array', m', called, stands, fun element full => ?_⟩
  simp only [DynamicArray.call, dynamicArrayPush, if_pos full]

namespace Sample

/-- One slot of two bytes; the second push is refused a block, the third is given one. -/
def someArrayOps : List ArrayOp :=
  [.push none [1, 2], .push none [3, 4], .push (some (100, writeAt (fun _ => 0) 100 [1, 2])) [5, 6],
    .value 0, .value 2, .pop, .pop, .pop]

end Sample

/-- The calls of the sample return what the stack returns. -/
theorem array_refines_stack_sample : ∃ array m,
    calls DynamicArray.call Sample.someArrayOps (⟨0, 8, 2, 1, 2⟩, fun _ => 0) =
      .ok ([some (8, [1, 2]), none, some (102, [5, 6]), some (100, [1, 2]), none,
        some (102, [5, 6]), some (100, [1, 2]), none], array, m) := by
  have permitted : Permitted DynamicArray.call ArrayOp.Granted Sample.someArrayOps
      (⟨0, 8, 2, 1, 2⟩, fun _ => 0) := by
    refine .cons ⟨rfl, fun full => absurd full (by decide)⟩ rfl ?_
    refine .cons ⟨rfl, fun _ _ _ given => by cases given⟩ rfl ?_
    refine .cons ⟨rfl, fun _ _ _ given => ?_⟩ rfl ?_
    · cases given
      decide
    · exact .cons trivial rfl (.cons trivial rfl (.cons trivial rfl (.cons trivial rfl
        (.cons trivial rfl trivial))))
  have made : dynamicArrayInit 1 2 true (some 8) = some ⟨0, 8, 2, 1, 2⟩ := rfl
  obtain ⟨array, m, called, _⟩ := array_refines_stack 1 2 (by decide) (by decide) (by decide) made
    (fun _ => 0) Sample.someArrayOps permitted
  exact ⟨array, m, called⟩

/-! ## Accessors -/

/-- The accessors describe the same live elements. -/
structure AccessorsAgree (array : DynamicArray) : Prop where
  /-- The slot of an element has its index. -/
  index : ∀ i < array.nitem, ∃ slot, dynamicArrayValue array i = some slot ∧
    dynamicArrayIndex array slot = i
  /-- The head is the first slot. -/
  head : dynamicArrayHead array = dynamicArrayValue array 0
  /-- The end is the slot of the last element, which is the one the next pop returns. -/
  last : 0 < array.nitem → dynamicArrayEnd array = dynamicArrayValue array (array.nitem - 1) ∧
    dynamicArrayEnd array = (dynamicArrayPop array).1
  /-- There is a head if there are elements. -/
  headless : dynamicArrayHead array = none ↔ array.nitem = 0
  /-- There is an end if there are elements. -/
  endless : dynamicArrayEnd array = none ↔ array.nitem = 0

/-- The index of a slot is its number. -/
theorem DynamicArray.Stands.index (stands : Stands width array m stack) {i : BitVec 32}
    (inside : i < array.nitem) : dynamicArrayIndex array (array.slot i) = i := by
  have inside' : i.toNat < array.nitem.toNat := inside
  have count := stands.nitem
  have room := stands.room
  have fits := stands.fits
  have sized := stands.sized
  have address := stands.slot (i := i) (by omega)
  rw [← stands.item] at address
  have most : width * i.toNat ≤ width * stack.capacity := Nat.mul_le_mul_left width (by omega)
  have offset : array.slot i - array.item = width * i.toNat := by omega
  have behind : ¬array.slot i < array.item := by omega
  rw [dynamicArrayIndex, if_neg behind, offset]
  apply BitVec.eq_of_toNat_eq
  rw [BitVec.toNat_udiv, BitVec.toNat_ofNat, stands.size, Nat.mod_eq_of_lt (by omega),
    Nat.mul_div_cancel_left _ sized]

/-- There is no slot behind the last one there is room for. -/
theorem DynamicArray.Stands.end_none (stands : Stands width array m stack) :
    dynamicArrayEnd array = none := by
  have beyond : ¬array.nmalloc < array.nitem := by
    intro inside
    have inside' : array.nmalloc.toNat < array.nitem.toNat := inside
    rw [stands.nmalloc, stands.nitem] at inside'
    exact absurd stands.room (Nat.not_le.mpr inside')
  rw [dynamicArrayEnd, dynamicArrayValue, if_neg beyond]

/-- After any calls on a new array the accessors agree if and only if no element is live: the end
is always `NULL`. -/
theorem accessors_agree_iff (ncount itemsize : BitVec 32) (counted : 1 ≤ ncount.toNat)
    (sized : 1 ≤ itemsize.toNat) (fits : itemsize.toNat * ncount.toNat < 2 ^ 32)
    (made : dynamicArrayInit ncount itemsize granted answer = some array) (ops : List ArrayOp)
    (permitted : Permitted DynamicArray.call ArrayOp.Granted ops (array, m))
    {results : List SlotSeen} {array' : DynamicArray}
    (called : calls DynamicArray.call ops (array, m) = .ok (results, array', m')) :
    AccessorsAgree array' ↔ array'.nitem = 0 := by
  obtain ⟨array'', m'', called', stands⟩ := stands_calls counted sized fits made permitted
  have same := Except.ok.inj (called'.symm.trans called)
  simp only [Prod.mk.injEq] at same
  obtain ⟨_, rfl, rfl⟩ := same
  have nothing := stands.end_none
  constructor
  · exact fun agree => agree.endless.mp nothing
  · intro empty
    have none_live : ∀ i : BitVec 32, ¬i < array''.nitem := by
      intro i inside
      rw [empty] at inside
      exact BitVec.not_lt_zero inside
    have headless : dynamicArrayHead array'' = none := if_neg (none_live 0)
    exact ⟨fun i inside => absurd inside (none_live i), rfl,
      fun positive => absurd positive (none_live 0), iff_of_true headless empty,
      iff_of_true nothing empty⟩

/-- A push and a pop leave the accessors of an empty array. -/
theorem accessors_agree_popped : AccessorsAgree ⟨0, 8, 2, 1, 2⟩ := by
  have made : dynamicArrayInit 1 2 true (some 8) = some ⟨0, 8, 2, 1, 2⟩ := rfl
  have permitted : Permitted DynamicArray.call ArrayOp.Granted [.push none [1, 2], .pop]
      (⟨0, 8, 2, 1, 2⟩, fun _ => 0) :=
    .cons ⟨rfl, fun full => absurd full (by decide)⟩ rfl (.cons trivial rfl trivial)
  exact (accessors_agree_iff 1 2 (by decide) (by decide) (by decide) made
    [.push none [1, 2], .pop] permitted rfl).mpr rfl

/-- After one push the end is `NULL`. -/
theorem accessors_disagree : ¬∀ (ncount itemsize : BitVec 32) (granted : Bool)
    (answer : Option Nat) (array : DynamicArray) (m : Bytes) (ops : List ArrayOp),
    1 ≤ ncount.toNat → 1 ≤ itemsize.toNat → itemsize.toNat * ncount.toNat < 2 ^ 32 →
      dynamicArrayInit ncount itemsize granted answer = some array →
        Permitted DynamicArray.call ArrayOp.Granted ops (array, m) →
          ∀ results array' m', calls DynamicArray.call ops (array, m) =
            .ok (results, array', m') → AccessorsAgree array' := by
  intro always
  have permitted : Permitted DynamicArray.call ArrayOp.Granted [.push none [1, 2]]
      (⟨0, 8, 2, 1, 2⟩, fun _ => 0) :=
    .cons ⟨rfl, fun full => absurd full (by decide)⟩ rfl trivial
  have agree := always 1 2 true (some 8) ⟨0, 8, 2, 1, 2⟩ (fun _ => 0) [.push none [1, 2]]
    (by decide) (by decide) (by decide) rfl permitted _ _ _ rfl
  have full : (1 : BitVec 32) = 0 := agree.endless.mp rfl
  exact absurd full (by decide)

end EpollNet
