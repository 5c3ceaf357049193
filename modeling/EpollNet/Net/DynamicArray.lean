import EpollNet.Basis.Records
import Mathlib.Data.BitVec

/-!
# `array.c`

A dynamic array is a block of slots of one size and three `unsigned int`s. All of its arithmetic is
modulo `2 ^ 32`; only the sum of the block's address and an offset is as wide as a pointer. `malloc`
and `realloc` answer with an address or `NULL`, `realloc` together with the memory it leaves.
-/

namespace EpollNet

open EpollNet.Basis

/-- Bytes by address. -/
abbrev Bytes := Nat → UInt8

/-- `struct tagArray`. -/
structure DynamicArray where
  /-- `nitem`, the number of live elements. -/
  nitem : BitVec 32
  /-- `item`, the address of the first slot. -/
  item : Nat
  /-- `size`, the size of an element. -/
  size : BitVec 32
  /-- `nmalloc`, the number of slots. -/
  nmalloc : BitVec 32
  /-- The number of bytes last requested for `item`; bookkeeping of the model. -/
  requested : BitVec 32
deriving DecidableEq

/-- `dynamicArray_init`, with what its two `malloc`s answer. -/
def dynamicArrayInit (ncount itemsize : BitVec 32) (granted : Bool) (item : Option Nat) :
    Option DynamicArray :=
  if granted then item.map fun item => ⟨0, item, itemsize, ncount, ncount * itemsize⟩ else none

/-- A new array has the slots asked for, and no element. -/
theorem dynamicArrayInit_some {ncount itemsize : BitVec 32} {granted : Bool} {answer : Option Nat}
    {array : DynamicArray} (made : dynamicArrayInit ncount itemsize granted answer = some array) :
    ∃ item, array = ⟨0, item, itemsize, ncount, ncount * itemsize⟩ := by
  unfold dynamicArrayInit at made
  cases granted with
  | false => cases made
  | true =>
    obtain ⟨item, _, made⟩ := Option.map_eq_some_iff.mp made
    exact ⟨item, made.symm⟩

namespace DynamicArray

/-- The address of a slot. -/
def slot (array : DynamicArray) (i : BitVec 32) : Nat := array.item + (array.size * i).toNat

/-- The array after `realloc` answered with an address. -/
def grow (array : DynamicArray) (new_array : Nat) : DynamicArray :=
  { array with
    item := new_array
    nmalloc := array.nmalloc * 2
    requested := 2 * (array.size * array.nmalloc) }

/-- The end of `dynamicArray_push`. -/
def take (array : DynamicArray) : Nat × DynamicArray :=
  (array.slot array.nitem, { array with nitem := array.nitem + 1 })

end DynamicArray

/-- `dynamicArray_push`, with what its `realloc` answers. -/
def dynamicArrayPush (array : DynamicArray) (m : Bytes) (answer : Option (Nat × Bytes)) :
    Option Nat × DynamicArray × Bytes :=
  if array.nitem = array.nmalloc then
    match answer with
    | none => (none, array, m)
    | some (new_array, m) =>
      match (array.grow new_array).take with
      | (slot, array) => (some slot, array, m)
  else
    match array.take with
    | (slot, array) => (some slot, array, m)

/-- `dynamicArray_pop`. -/
def dynamicArrayPop (array : DynamicArray) : Option Nat × DynamicArray :=
  if array.nitem > 0 then
    (some (array.slot (array.nitem - 1)), { array with nitem := array.nitem - 1 })
  else (none, array)

/-- `dynamicArray_value`. -/
def dynamicArrayValue (array : DynamicArray) (index : BitVec 32) : Option Nat :=
  if index < array.nitem then some (array.slot index) else none

/-- `dynamicArray_head`. -/
def dynamicArrayHead (array : DynamicArray) : Option Nat := dynamicArrayValue array 0

/-- `dynamicArray_end`, which asks for the slot behind the last one there is room for. -/
def dynamicArrayEnd (array : DynamicArray) : Option Nat := dynamicArrayValue array array.nmalloc

/-- `dynamicArray_index`: the offset, made an `unsigned int`, over the size. -/
def dynamicArrayIndex (array : DynamicArray) (ptr : Nat) : BitVec 32 :=
  if ptr < array.item then -1 else BitVec.ofNat 32 (ptr - array.item) / array.size

/-! ## Calls -/

/-- A call, with what its `realloc` answers and what the caller fills the slot with. -/
inductive ArrayOp where
  /-- `dynamicArray_push`; the caller fills the slot it is given. -/
  | push (answer : Option (Nat × Bytes)) (element : List UInt8)
  /-- `dynamicArray_pop`. -/
  | pop
  /-- `dynamicArray_value`. -/
  | value (index : BitVec 32)

/-- The slot a call returned and what lies in it. -/
abbrev SlotSeen := Option (Nat × List UInt8)

/-- What the caller finds in a slot. -/
def DynamicArray.seen (array : DynamicArray) (m : Bytes) (slot : Option Nat) : SlotSeen :=
  slot.map fun slot => (slot, readAt m slot array.size.toNat)

/-- A call: the slot it returns with its contents, and the array and the memory afterwards. -/
def DynamicArray.call : ArrayOp → DynamicArray × Bytes →
    Except Empty (SlotSeen × DynamicArray × Bytes)
  | .push answer element, (array, m) =>
    match dynamicArrayPush array m answer with
    | (none, array, m) => .ok (none, array, m)
    | (some slot, array, m) =>
      let m := writeAt m slot element
      .ok (array.seen m (some slot), array, m)
  | .pop, (array, m) =>
    match dynamicArrayPop array with
    | (slot, array) => .ok (array.seen m slot, array, m)
  | .value index, (array, m) => .ok (array.seen m (dynamicArrayValue array index), array, m)

end EpollNet
