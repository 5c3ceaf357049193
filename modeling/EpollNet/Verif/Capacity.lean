import EpollNet.Basis.Calls
import EpollNet.Net.DynamicArray

/-!
# Slots and the block they lie in

The capacity and the byte count of a dynamic array are `unsigned int`s. The first byte count may be
smaller than the product it stands for, a capacity of zero doubles to zero, and doubling comes round
at `2 ^ 32`. Slots stay inside the block up to the number of live elements at which one of these
happens.
-/

namespace EpollNet

open EpollNet.Basis

/-! ## What is demanded -/

/-- `realloc` gives the call what it asks for. -/
def ArrayOp.Served : ArrayOp → Prop
  | .push answer _ => answer.isSome = true
  | _ => True

/-- The slot lies in the bytes last requested. -/
def DynamicArray.Inside (array : DynamicArray) (slot : Nat) : Prop :=
  array.item ≤ slot ∧ slot + array.size.toNat ≤ array.item + array.requested.toNat

/-- After the call there are no more live elements than slots, and the slot it returned lies in the
block. -/
def Contained (_ : ArrayOp) (_ : DynamicArray × Bytes) (result : SlotSeen)
    (object : DynamicArray × Bytes) : Prop :=
  object.1.nitem ≤ object.1.nmalloc ∧
    ∀ slot contents, result = some (slot, contents) → object.1.Inside slot

/-- From the start and after every call. -/
def SlotsInside (array : DynamicArray) (m : Bytes) (ops : List ArrayOp) : Prop :=
  array.nitem ≤ array.nmalloc ∧ Throughout DynamicArray.call Contained ops (array, m)

/-! ## Counting -/

/-- The two counters of an array. -/
structure Counters where
  /-- `nmalloc`. -/
  capacity : Nat
  /-- `nitem`. -/
  live : Nat

/-- What a call does to the counters. -/
def ArrayOp.count : ArrayOp → Counters → Counters
  | .push _ _, c =>
    if c.live = c.capacity then ⟨c.capacity * 2 % 2 ^ 32, (c.live + 1) % 2 ^ 32⟩
    else ⟨c.capacity, c.live + 1⟩
  | .pop, c => ⟨c.capacity, c.live - 1⟩
  | .value _, c => c

/-- A full array of elements of a width can double. For elements without bytes the counter of live
elements may also come round together with the capacity. -/
def Doubles (width capacity : Nat) : Prop :=
  1 ≤ capacity ∧ max width 1 * (capacity * 2) < 2 ^ 32 ∨ width = 0 ∧ capacity = 2 ^ 32 - 1

/-- The call finds room, or the array can double. -/
def ArrayOp.Suits (width : Nat) : ArrayOp → Counters → Prop
  | .push _ _, c =>
    if c.live = c.capacity then Doubles width c.capacity
    else width * (c.live + 1) ≤ width * c.capacity % 2 ^ 32
  | _, _ => True

/-- Doubling gives room for another element if and only if nothing comes round. -/
theorem doubles_iff {width capacity : Nat} (small : capacity < 2 ^ 32)
    (fits : width * capacity < 2 ^ 32) :
    (capacity + 1) % 2 ^ 32 ≤ capacity * 2 % 2 ^ 32 ∧
        width * capacity + width ≤ 2 * (width * capacity) % 2 ^ 32 ↔ Doubles width capacity := by
  unfold Doubles
  rcases Nat.eq_zero_or_pos width with rfl | positive
  · have one : max 0 1 = 1 := rfl
    rw [one]
    omega
  · have most : max width 1 = width := Nat.max_eq_left positive
    have bytes : width * (capacity * 2) = 2 * (width * capacity) := by
      rw [← Nat.mul_assoc, Nat.mul_comm]
    have slots : capacity ≤ width * capacity := Nat.le_mul_of_pos_left capacity positive
    rw [most, bytes]
    rcases Nat.eq_zero_or_pos capacity with rfl | counted
    · omega
    · have element : width ≤ width * capacity := Nat.le_mul_of_pos_right width counted
      generalize width * capacity = total at *
      omega

/-- The array has these counters, and its live elements lie in the block. -/
structure Counted (width : Nat) (array : DynamicArray) (c : Counters) : Prop where
  /-- The size of an element. -/
  size : array.size.toNat = width
  /-- The number of slots. -/
  nmalloc : array.nmalloc.toNat = c.capacity
  /-- The number of live elements. -/
  nitem : array.nitem.toNat = c.live
  /-- The byte count. -/
  requested : array.requested.toNat = width * c.capacity % 2 ^ 32
  /-- There are slots for the live elements. -/
  room : c.live ≤ c.capacity
  /-- There are bytes for them. -/
  held : width * c.live ≤ width * c.capacity % 2 ^ 32

variable {array : DynamicArray} {m : Bytes} {width : Nat} {c : Counters}

namespace Counted

/-- The capacity is an `unsigned int`. -/
theorem small (counted : Counted width array c) : c.capacity < 2 ^ 32 := by
  rw [← counted.nmalloc]
  exact array.nmalloc.isLt

/-- The bytes of the live elements do not come round. -/
theorem offset (counted : Counted width array c) : width * c.live < 2 ^ 32 :=
  lt_of_le_of_lt counted.held (Nat.mod_lt _ (by decide))

/-- The slot of a live element lies in the block. -/
theorem inside (counted : Counted width array c) {i : BitVec 32} (live : i.toNat < c.live) :
    array.Inside (array.slot i) := by
  have offset := counted.offset
  have held := counted.held
  have last : width * i.toNat + width ≤ width * c.live := record_inside live width
  have place : (array.size * i).toNat = width * i.toNat := by
    rw [BitVec.toNat_mul, counted.size, Nat.mod_eq_of_lt (by omega)]
  unfold DynamicArray.Inside DynamicArray.slot
  rw [place, counted.size, counted.requested]
  omega

/-- A push that takes the next slot of an array with these sizes. -/
theorem take (counted : Counted width array c) (array' : DynamicArray) {capacity : Nat}
    (size : array'.size = array.size) (nitem : array'.nitem = array.nitem)
    (nmalloc : array'.nmalloc.toNat = capacity)
    (requested : array'.requested.toNat = width * capacity % 2 ^ 32) (op : ArrayOp)
    (object : DynamicArray × Bytes) (contents : List UInt8) (m' : Bytes) :
    (Contained op object (some (array'.take.1, contents)) (array'.take.2, m') ↔
      (c.live + 1) % 2 ^ 32 ≤ capacity ∧
        width * c.live + width ≤ width * capacity % 2 ^ 32) ∧
    ((c.live + 1) % 2 ^ 32 ≤ capacity →
      width * ((c.live + 1) % 2 ^ 32) ≤ width * capacity % 2 ^ 32 →
        Counted width array'.take.2 ⟨capacity, (c.live + 1) % 2 ^ 32⟩) := by
  have width_eq : array'.size.toNat = width := by rw [size, counted.size]
  have place : (array'.size * array'.nitem).toNat = width * c.live := by
    rw [BitVec.toNat_mul, width_eq, nitem, counted.nitem, Nat.mod_eq_of_lt counted.offset]
  have next : (array'.nitem + 1).toNat = (c.live + 1) % 2 ^ 32 := by
    rw [BitVec.toNat_add, nitem, counted.nitem]
    rfl
  constructor
  · have taken : array'.take.1 = array'.item + width * c.live := by
      rw [DynamicArray.take, DynamicArray.slot, place]
    have inside : array'.take.2.Inside (array'.item + width * c.live) ↔
        width * c.live + width ≤ width * capacity % 2 ^ 32 := by
      show _ ∧ array'.item + width * c.live + array'.size.toNat ≤
        array'.item + array'.requested.toNat ↔ _
      rw [width_eq, requested, Nat.add_assoc]
      constructor
      · exact fun within => Nat.le_of_add_le_add_left within.2
      · exact fun within => ⟨Nat.le_add_right _ _, Nat.add_le_add_left within _⟩
    have counters : array'.take.2.nitem ≤ array'.take.2.nmalloc ↔
        (c.live + 1) % 2 ^ 32 ≤ capacity := by
      show (array'.nitem + 1).toNat ≤ array'.nmalloc.toNat ↔ _
      rw [next, nmalloc]
    rw [← counters, ← inside, taken]
    constructor
    · exact fun contained => ⟨contained.1, contained.2 _ _ rfl⟩
    · rintro ⟨few, within⟩
      refine ⟨few, fun slot contents' same => ?_⟩
      obtain ⟨rfl, _⟩ := Prod.mk.inj (Option.some.inj same)
      exact within
  · exact fun room held => ⟨width_eq, nmalloc, next, requested, room, held⟩

/-- A push on a full array keeps the slots inside if and only if the array can double. -/
theorem push_full (counted : Counted width array c) (full : array.nitem = array.nmalloc)
    (item : Nat) (m m₁ : Bytes) (element : List UInt8) :
    ∃ result object',
      DynamicArray.call (.push (some (item, m₁)) element) (array, m) = .ok (result, object') ∧
      (Contained (.push (some (item, m₁)) element) (array, m) result object' ↔
        Doubles width c.capacity) ∧
      (Doubles width c.capacity → Counted width object'.1
        ⟨c.capacity * 2 % 2 ^ 32, (c.live + 1) % 2 ^ 32⟩) := by
  have full' : c.live = c.capacity := by rw [← counted.nitem, full, counted.nmalloc]
  have succ : width * (c.live + 1) = width * c.live + width := Nat.mul_succ width c.live
  have nmalloc : (array.grow item).nmalloc.toNat = c.capacity * 2 % 2 ^ 32 := by
    show (array.nmalloc * 2).toNat = _
    rw [BitVec.toNat_mul, counted.nmalloc]
    rfl
  have bytes : width * (c.capacity * 2 % 2 ^ 32) % 2 ^ 32 =
      2 * (width * c.capacity) % 2 ^ 32 := by
    rw [Nat.mul_mod, Nat.mod_mod, ← Nat.mul_mod, ← Nat.mul_assoc, Nat.mul_comm]
  have requested : (array.grow item).requested.toNat =
      width * (c.capacity * 2 % 2 ^ 32) % 2 ^ 32 := by
    have two : (2 : BitVec 32).toNat = 2 := rfl
    show (2 * (array.size * array.nmalloc)).toNat = _
    rw [bytes, BitVec.toNat_mul, BitVec.toNat_mul, counted.size, counted.nmalloc, two,
      Nat.mul_mod 2, Nat.mod_mod, ← Nat.mul_mod]
  have doubles := doubles_iff counted.small (full' ▸ counted.offset)
  let m' := writeAt m₁ (array.grow item).take.1 element
  let contents := readAt m' (array.grow item).take.1 (array.grow item).take.2.size.toNat
  obtain ⟨contained, kept⟩ := counted.take (array.grow item) rfl rfl nmalloc requested
    (.push (some (item, m₁)) element) (array, m) contents m'
  refine ⟨some ((array.grow item).take.1, contents), ((array.grow item).take.2, m'), ?_, ?_, ?_⟩
  · simp only [DynamicArray.call, dynamicArrayPush, if_pos full]
    rfl
  · rw [contained, bytes, full', doubles]
  · intro suits
    obtain ⟨few, within⟩ := doubles.mpr suits
    rw [← full', ← succ] at within
    rw [← full'] at few
    refine kept (full' ▸ few) ?_
    rw [bytes]
    exact (Nat.mul_le_mul_left width (Nat.mod_le _ _)).trans (full' ▸ within)

/-- A push that finds a slot to spare keeps the slots inside if and only if there are bytes for
it. -/
theorem push_spare (counted : Counted width array c) (spare : ¬array.nitem = array.nmalloc)
    (answer : Option (Nat × Bytes)) (m : Bytes) (element : List UInt8) :
    ∃ result object',
      DynamicArray.call (.push answer element) (array, m) = .ok (result, object') ∧
      (Contained (.push answer element) (array, m) result object' ↔
        width * (c.live + 1) ≤ width * c.capacity % 2 ^ 32) ∧
      (width * (c.live + 1) ≤ width * c.capacity % 2 ^ 32 →
        Counted width object'.1 ⟨c.capacity, c.live + 1⟩) := by
  have room := counted.room
  have small := counted.small
  have succ : width * (c.live + 1) = width * c.live + width := Nat.mul_succ width c.live
  have spare' : ¬c.live = c.capacity := by
    intro same
    exact spare (BitVec.eq_of_toNat_eq (by rw [counted.nitem, counted.nmalloc, same]))
  have next : (c.live + 1) % 2 ^ 32 = c.live + 1 := Nat.mod_eq_of_lt (by omega)
  have fewer : c.live + 1 ≤ c.capacity := by omega
  let m' := writeAt m array.take.1 element
  let contents := readAt m' array.take.1 array.take.2.size.toNat
  obtain ⟨contained, kept⟩ := counted.take array rfl rfl counted.nmalloc counted.requested
    (.push answer element) (array, m) contents m'
  rw [next] at contained kept
  refine ⟨some (array.take.1, contents), (array.take.2, m'), ?_, ?_, kept fewer⟩
  · simp only [DynamicArray.call, dynamicArrayPush, if_neg spare]
    rfl
  · rw [contained, succ]
    exact and_iff_right fewer

/-- `dynamicArray_push` keeps the slots inside if and only if it finds room or can double. -/
theorem push (counted : Counted width array c) {answer : Option (Nat × Bytes)}
    {element : List UInt8} (served : answer.isSome = true) (m : Bytes) :
    ∃ result object', DynamicArray.call (.push answer element) (array, m) = .ok (result, object') ∧
      (Contained (.push answer element) (array, m) result object' ↔
        (ArrayOp.push answer element).Suits width c) ∧
      ((ArrayOp.push answer element).Suits width c →
        Counted width object'.1 ((ArrayOp.push answer element).count c)) := by
  by_cases full : array.nitem = array.nmalloc
  · have full' : c.live = c.capacity := by rw [← counted.nitem, full, counted.nmalloc]
    obtain ⟨⟨item, m₁⟩, rfl⟩ := Option.isSome_iff_exists.mp served
    simp only [ArrayOp.Suits, ArrayOp.count, if_pos full']
    exact counted.push_full full item m m₁ element
  · have spare : ¬c.live = c.capacity := by
      intro same
      exact full (BitVec.eq_of_toNat_eq (by rw [counted.nitem, counted.nmalloc, same]))
    simp only [ArrayOp.Suits, ArrayOp.count, if_neg spare]
    exact counted.push_spare full answer m element

/-- `dynamicArray_pop` keeps the slots inside. -/
theorem pop (counted : Counted width array c) (m : Bytes) :
    ∃ result object', DynamicArray.call .pop (array, m) = .ok (result, object') ∧
      Contained .pop (array, m) result object' ∧ Counted width object'.1 (ArrayOp.pop.count c) := by
  have count := counted.nitem
  have room := counted.room
  have few : array.nitem ≤ array.nmalloc := by
    show array.nitem.toNat ≤ array.nmalloc.toNat
    rw [count, counted.nmalloc]
    exact room
  by_cases positive : array.nitem > 0
  · have positive' : 0 < array.nitem.toNat := positive
    have bound := array.nitem.isLt
    have one : (1 : BitVec 32).toNat = 1 := rfl
    have fewer : (array.nitem - 1).toNat = c.live - 1 := by
      rw [BitVec.toNat_sub, one]
      omega
    have counted' : Counted width { array with nitem := array.nitem - 1 }
        ⟨c.capacity, c.live - 1⟩ :=
      { counted with
        nitem := fewer
        room := (Nat.sub_le _ _).trans room
        held := (Nat.mul_le_mul_left width (Nat.sub_le _ _)).trans counted.held }
    let slot := array.slot (array.nitem - 1)
    refine ⟨some (slot, readAt m slot array.size.toNat),
      ({ array with nitem := array.nitem - 1 }, m), ?_, ⟨?_, ?_⟩, counted'⟩
    · simp only [DynamicArray.call, dynamicArrayPop, if_pos positive]
      rfl
    · show (array.nitem - 1).toNat ≤ array.nmalloc.toNat
      rw [fewer, counted.nmalloc]
      omega
    · intro slot contents same
      obtain ⟨rfl, _⟩ := Prod.mk.inj (Option.some.inj same)
      exact counted.inside (by omega)
  · have empty : c.live = 0 := by
      have zero : ¬0 < array.nitem.toNat := positive
      omega
    refine ⟨none, (array, m), ?_, ⟨few, fun slot contents same => by cases same⟩, ?_⟩
    · simp only [DynamicArray.call, dynamicArrayPop, if_neg positive]
      rfl
    · rw [ArrayOp.count, empty, Nat.zero_sub, ← empty]
      exact counted

/-- `dynamicArray_value` keeps the slots inside. -/
theorem value (counted : Counted width array c) (index : BitVec 32) (m : Bytes) :
    Contained (.value index) (array, m) (array.seen m (dynamicArrayValue array index))
      (array, m) := by
  constructor
  · show array.nitem.toNat ≤ array.nmalloc.toNat
    rw [counted.nitem, counted.nmalloc]
    exact counted.room
  · intro slot contents same
    by_cases live : index < array.nitem
    · have live' : index.toNat < array.nitem.toNat := live
      rw [counted.nitem] at live'
      rw [dynamicArrayValue, if_pos live] at same
      obtain ⟨rfl, _⟩ := Prod.mk.inj (Option.some.inj same)
      exact counted.inside live'
    · rw [dynamicArrayValue, if_neg live] at same
      cases same

/-- A call keeps the slots inside if and only if it suits the counters. -/
theorem call (counted : Counted width array c) (m : Bytes) (op : ArrayOp) (served : op.Served) :
    ∃ result object', DynamicArray.call op (array, m) = .ok (result, object') ∧
      (Contained op (array, m) result object' ↔ op.Suits width c) ∧
      (op.Suits width c → Counted width object'.1 (op.count c)) := by
  cases op with
  | push answer element => exact counted.push served m
  | pop =>
    obtain ⟨result, object', called, contained, counted'⟩ := counted.pop m
    exact ⟨result, object', called, iff_of_true contained trivial, fun _ => counted'⟩
  | value index =>
    exact ⟨_, _, rfl, iff_of_true (counted.value index m) trivial, fun _ => counted⟩

end Counted

/-- The slots stay inside if and only if every call suits the counters it finds. -/
theorem contained_iff (counted : Counted width array c) {ops : List ArrayOp}
    (served : ∀ op ∈ ops, op.Served) (m : Bytes) :
    Throughout DynamicArray.call Contained ops (array, m) ↔
      Along ArrayOp.count (ArrayOp.Suits width) ops c := by
  have permitted : Permitted DynamicArray.call (fun op _ => op.Served) ops (array, m) :=
    .of_all served _
  refine throughout_iff (fun object c => Counted width object.1 c) ?_ ?_ counted permitted
  · rintro op ⟨array, m⟩ c counted served suits
    obtain ⟨result, object', called, contained, kept⟩ := counted.call m op served
    exact ⟨result, object', called, contained.mpr suits, kept suits⟩
  · rintro op ⟨array, m⟩ c counted served unsuited result object' called
    obtain ⟨result', object'', called', contained, _⟩ := counted.call m op served
    have same := Except.ok.inj (called'.symm.trans called)
    obtain ⟨rfl, rfl⟩ := Prod.mk.inj same
    exact mt contained.mp unsuited

/-! ## In terms of the calls -/

/-- What a call does to the number of live elements. -/
def ArrayOp.live : ArrayOp → Nat → Nat
  | .push _ _, live => live + 1
  | .pop, live => live - 1
  | .value _, live => live

/-- The most elements that are live at any time. -/
def mostLive : List ArrayOp → Nat → Nat
  | [], live => live
  | op :: rest, live => max live (mostLive rest (op.live live))

/-- The calls after the push that makes `2 ^ 32` elements live. -/
def afterRound : List ArrayOp → Nat → Option (List ArrayOp)
  | [], _ => none
  | op :: rest, live =>
    if op.live live = 2 ^ 32 then some rest else afterRound rest (op.live live)

/-- So many live elements fit the first block, or a block got by doubling whose number of slots and
of bytes do not come round. -/
def Suffices (ncount width live : Nat) : Prop :=
  live ≤ ncount ∧ width * live ≤ width * ncount % 2 ^ 32 ∨
    ∃ k, live ≤ ncount * 2 ^ k ∧ max width 1 * (ncount * 2 ^ k) < 2 ^ 32

/-- The most live elements fit. If elements have no bytes and there are as many slots as an
`unsigned int` can count, then the counters may come round once, together. -/
def Ample (ncount width : Nat) (ops : List ArrayOp) : Prop :=
  Suffices ncount width (mostLive ops 0) ∨
    width = 0 ∧ ncount = 2 ^ 32 - 1 ∧
      ∀ rest, afterRound ops 0 = some rest → mostLive rest 0 ≤ 2 ^ 32 - 2

variable {ncount k live : Nat}

/-- There are never fewer live than at the start. -/
theorem le_mostLive (ops : List ArrayOp) (live : Nat) : live ≤ mostLive ops live := by
  cases ops with
  | nil => exact le_refl live
  | cons op rest => exact le_max_left _ _

/-- Fewer elements fit. -/
theorem Suffices.fewer {less : Nat} (suffices_ : Suffices ncount width live) (few : less ≤ live) :
    Suffices ncount width less := by
  rcases suffices_ with ⟨room, held⟩ | ⟨k, room, fits⟩
  · exact .inl ⟨few.trans room, (Nat.mul_le_mul_left width few).trans held⟩
  · exact .inr ⟨k, few.trans room, fits⟩

/-- The more of two numbers fits if both do. -/
theorem suffices_max (a b : Nat) :
    Suffices ncount width (max a b) ↔ Suffices ncount width a ∧ Suffices ncount width b := by
  constructor
  · exact fun both => ⟨both.fewer (le_max_left a b), both.fewer (le_max_right a b)⟩
  · rintro ⟨first, second⟩
    rcases le_total a b with less | less
    · rwa [max_eq_right less]
    · rwa [max_eq_left less]

/-- So many elements are live after the block was doubled so many times. -/
structure Doubled (ncount width k live : Nat) : Prop where
  /-- The number of slots is an `unsigned int`. -/
  small : ncount * 2 ^ k < 2 ^ 32
  /-- There are slots for the live elements. -/
  room : live ≤ ncount * 2 ^ k
  /-- There are bytes for them. -/
  held : width * live ≤ width * (ncount * 2 ^ k) % 2 ^ 32
  /-- After doubling nothing has come round. -/
  fits : k = 0 ∨ max width 1 * (ncount * 2 ^ k) < 2 ^ 32

namespace Doubled

/-- Elements that have room and bytes fit. -/
theorem suffices_of (doubled : Doubled ncount width k live) {more : Nat}
    (room : more ≤ ncount * 2 ^ k) (held : width * more ≤ width * (ncount * 2 ^ k) % 2 ^ 32) :
    Suffices ncount width more := by
  rcases doubled.fits with rfl | fits
  · rw [pow_zero, Nat.mul_one] at room held
    exact .inl ⟨room, held⟩
  · exact .inr ⟨k, room, fits⟩

/-- The bytes of a capacity that does not come round do not either. -/
theorem bytes_fit {capacity : Nat} (fits : max width 1 * capacity < 2 ^ 32) :
    width * capacity < 2 ^ 32 :=
  lt_of_le_of_lt (Nat.mul_le_mul_right capacity (le_max_left width 1)) fits

/-- With a slot to spare another element fits if and only if there are bytes for it. -/
theorem suffices_spare (doubled : Doubled ncount width k live) (spare : live < ncount * 2 ^ k) :
    Suffices ncount width (live + 1) ↔
      width * (live + 1) ≤ width * (ncount * 2 ^ k) % 2 ^ 32 := by
  refine ⟨fun enough => ?_, doubled.suffices_of spare⟩
  have whole : width * (live + 1) ≤ width * (ncount * 2 ^ k) := Nat.mul_le_mul_left width spare
  rcases doubled.fits with rfl | fits
  · rcases enough with ⟨_, held⟩ | ⟨j, _, fits⟩
    · rwa [pow_zero, Nat.mul_one]
    · have less : ncount * 2 ^ 0 ≤ ncount * 2 ^ j :=
        Nat.mul_le_mul_left ncount (Nat.pow_le_pow_right (by decide) (Nat.zero_le j))
      have bytes := lt_of_le_of_lt (Nat.mul_le_mul_left width less) (bytes_fit fits)
      rwa [Nat.mod_eq_of_lt bytes]
  · rwa [Nat.mod_eq_of_lt (bytes_fit fits)]

/-- A capacity that was doubled is even, so it is not the largest `unsigned int`. -/
theorem not_largest (apart : ¬(width = 0 ∧ ncount = 2 ^ 32 - 1)) :
    ¬(width = 0 ∧ ncount * 2 ^ k = 2 ^ 32 - 1) := by
  rintro ⟨zero, largest⟩
  cases k with
  | zero => exact apart ⟨zero, by rwa [pow_zero, Nat.mul_one] at largest⟩
  | succ k =>
    rw [Nat.pow_succ, ← Nat.mul_assoc] at largest
    omega

/-- With no slot to spare another element fits if and only if the array can double. -/
theorem suffices_full (full : live = ncount * 2 ^ k)
    (apart : ¬(width = 0 ∧ ncount = 2 ^ 32 - 1)) :
    Suffices ncount width (live + 1) ↔ Doubles width (ncount * 2 ^ k) := by
  have twice : ncount * 2 ^ k * 2 = ncount * 2 ^ (k + 1) := by
    rw [Nat.pow_succ, Nat.mul_assoc]
  constructor
  · rintro (⟨room, _⟩ | ⟨j, room, fits⟩)
    · have least : ncount ≤ ncount * 2 ^ k := Nat.le_mul_of_pos_right ncount (Nat.two_pow_pos k)
      omega
    · have later : k < j := by
        by_contra earlier
        have less : ncount * 2 ^ j ≤ ncount * 2 ^ k :=
          Nat.mul_le_mul_left ncount (Nat.pow_le_pow_right (by decide) (Nat.le_of_not_lt earlier))
        omega
      have most : ncount * 2 ^ (k + 1) ≤ ncount * 2 ^ j :=
        Nat.mul_le_mul_left ncount (Nat.pow_le_pow_right (by decide) later)
      have counted : 1 ≤ ncount * 2 ^ k := by
        have some_slot : 0 < ncount := Nat.pos_of_mul_pos_right (show 0 < ncount * 2 ^ j by omega)
        exact Nat.mul_pos some_slot (Nat.two_pow_pos k)
      refine .inl ⟨counted, ?_⟩
      rw [twice]
      exact lt_of_le_of_lt (Nat.mul_le_mul_left _ most) fits
  · rintro (⟨counted, fits⟩ | largest)
    · rw [twice] at fits
      refine .inr ⟨k + 1, ?_, fits⟩
      omega
    · exact absurd largest (not_largest apart)

/-- The array doubles. -/
theorem double (doubles : Doubles width (ncount * 2 ^ k))
    (apart : ¬(width = 0 ∧ ncount = 2 ^ 32 - 1)) :
    Doubled ncount width (k + 1) (ncount * 2 ^ k + 1) := by
  have twice : ncount * 2 ^ k * 2 = ncount * 2 ^ (k + 1) := by
    rw [Nat.pow_succ, Nat.mul_assoc]
  obtain ⟨counted, fits⟩ := doubles.resolve_right (not_largest apart)
  rw [twice] at fits
  have slots : ncount * 2 ^ (k + 1) ≤ max width 1 * (ncount * 2 ^ (k + 1)) :=
    Nat.le_mul_of_pos_left _ (lt_of_lt_of_le Nat.one_pos (le_max_right width 1))
  have room : ncount * 2 ^ k + 1 ≤ ncount * 2 ^ (k + 1) := by omega
  refine ⟨by omega, room, ?_, .inr fits⟩
  rw [Nat.mod_eq_of_lt (bytes_fit fits)]
  exact Nat.mul_le_mul_left width room

end Doubled

variable {answer : Option (Nat × Bytes)} {element : List UInt8} {rest : List ArrayOp}
  {capacity : Nat}

/-- A push that finds the array full. -/
theorem along_full : Along ArrayOp.count (ArrayOp.Suits width) (.push answer element :: rest)
    ⟨capacity, capacity⟩ ↔ Doubles width capacity ∧ Along ArrayOp.count (ArrayOp.Suits width) rest
      ⟨capacity * 2 % 2 ^ 32, (capacity + 1) % 2 ^ 32⟩ := by
  simp only [Along, ArrayOp.Suits, ArrayOp.count, if_true]

/-- A push that finds a slot to spare. -/
theorem along_spare (spare : live < capacity) :
    Along ArrayOp.count (ArrayOp.Suits width) (.push answer element :: rest) ⟨capacity, live⟩ ↔
      width * (live + 1) ≤ width * capacity % 2 ^ 32 ∧
        Along ArrayOp.count (ArrayOp.Suits width) rest ⟨capacity, live + 1⟩ := by
  simp only [Along, ArrayOp.Suits, ArrayOp.count, if_neg (Nat.ne_of_lt spare)]

/-- Every call suits the counters it finds if and only if the most live elements fit. -/
theorem along_iff (apart : ¬(width = 0 ∧ ncount = 2 ^ 32 - 1)) (ops : List ArrayOp)
    (doubled : Doubled ncount width k live) :
    Along ArrayOp.count (ArrayOp.Suits width) ops ⟨ncount * 2 ^ k, live⟩ ↔
      Suffices ncount width (mostLive ops live) := by
  induction ops generalizing k live with
  | nil => exact iff_of_true trivial (doubled.suffices_of doubled.room doubled.held)
  | cons op rest ih =>
    have here : Suffices ncount width live := doubled.suffices_of doubled.room doubled.held
    rw [mostLive, suffices_max, and_iff_right here]
    cases op with
    | push answer element =>
      have least : live + 1 ≤ mostLive rest (live + 1) := le_mostLive rest (live + 1)
      rcases Nat.eq_or_lt_of_le doubled.room with full | spare
      · have enough := Doubled.suffices_full full apart
        subst full
        rw [along_full]
        by_cases doubles : Doubles width (ncount * 2 ^ k)
        · have doubled' := Doubled.double doubles apart
          have slots := doubled'.small
          have room := doubled'.room
          have twice : ncount * 2 ^ k * 2 = ncount * 2 ^ (k + 1) := by
            rw [Nat.pow_succ, Nat.mul_assoc]
          rw [and_iff_right doubles, twice, Nat.mod_eq_of_lt slots, Nat.mod_eq_of_lt (by omega)]
          exact ih doubled'
        · exact iff_of_false (fun along => doubles along.1)
            fun most => doubles (enough.mp (most.fewer least))
      · have enough := doubled.suffices_spare spare
        rw [along_spare spare]
        by_cases held : width * (live + 1) ≤ width * (ncount * 2 ^ k) % 2 ^ 32
        · rw [and_iff_right held]
          exact ih { doubled with room := spare, held := held }
        · exact iff_of_false (fun along => held along.1)
            fun most => held (enough.mp (most.fewer least))
    | pop =>
      have fewer : live - 1 ≤ live := Nat.sub_le live 1
      have doubled' : Doubled ncount width k (live - 1) :=
        { doubled with
          room := fewer.trans doubled.room
          held := (Nat.mul_le_mul_left width fewer).trans doubled.held }
      exact (and_iff_right trivial).trans (ih doubled')
    | value index => exact (and_iff_right trivial).trans (ih doubled)

/-! ## Counters that come round -/

/-- Elements without bytes in all but two of the slots there may be: another doubling would leave
too few. -/
theorem along_second (ops : List ArrayOp) (room : live ≤ 2 ^ 32 - 2) :
    Along ArrayOp.count (ArrayOp.Suits 0) ops ⟨2 ^ 32 - 2, live⟩ ↔
      mostLive ops live ≤ 2 ^ 32 - 2 := by
  induction ops generalizing live with
  | nil => exact iff_of_true trivial room
  | cons op rest ih =>
    rw [mostLive, max_le_iff, and_iff_right room]
    cases op with
    | push answer element =>
      have least : live + 1 ≤ mostLive rest (live + 1) := le_mostLive rest (live + 1)
      rcases Nat.eq_or_lt_of_le room with full | spare
      · have stuck : ¬Doubles 0 (2 ^ 32 - 2) := by
          rintro (⟨_, fits⟩ | ⟨_, largest⟩)
          · exact absurd fits (by decide)
          · exact absurd largest (by decide)
        subst full
        rw [along_full]
        refine iff_of_false (fun along => stuck along.1) fun few => ?_
        have few' : mostLive rest (2 ^ 32 - 2 + 1) ≤ 2 ^ 32 - 2 := few
        omega
      · rw [along_spare spare, and_iff_right (by omega)]
        exact ih spare
    | pop => exact (and_iff_right trivial).trans (ih ((Nat.sub_le live 1).trans room))
    | value index => exact (and_iff_right trivial).trans (ih room)

/-- Elements without bytes in as many slots as there may be: both counters come round once. -/
theorem along_first (ops : List ArrayOp) (room : live ≤ 2 ^ 32 - 1) :
    Along ArrayOp.count (ArrayOp.Suits 0) ops ⟨2 ^ 32 - 1, live⟩ ↔
      ∀ rest, afterRound ops live = some rest → mostLive rest 0 ≤ 2 ^ 32 - 2 := by
  induction ops generalizing live with
  | nil => exact iff_of_true trivial fun rest found => by cases found
  | cons op rest ih =>
    cases op with
    | push answer element =>
      rcases Nat.eq_or_lt_of_le room with full | spare
      · subst full
        have round : Doubles 0 (2 ^ 32 - 1) := .inr ⟨rfl, rfl⟩
        have found : afterRound (.push answer element :: rest) (2 ^ 32 - 1) = some rest := rfl
        rw [along_full, and_iff_right round, found]
        refine (along_second rest (Nat.zero_le _)).trans ⟨fun few rest' same => ?_, fun few => ?_⟩
        · obtain rfl := Option.some.inj same
          exact few
        · exact few rest rfl
      · have sooner : ¬(ArrayOp.push answer element).live live = 2 ^ 32 := by
          have next : (ArrayOp.push answer element).live live = live + 1 := rfl
          omega
        rw [along_spare spare, and_iff_right (by omega), afterRound, if_neg sooner]
        exact ih spare
    | pop =>
      have sooner : ¬ArrayOp.pop.live live = 2 ^ 32 := by
        have next : ArrayOp.pop.live live = live - 1 := rfl
        omega
      rw [afterRound, if_neg sooner]
      exact (and_iff_right trivial).trans (ih ((Nat.sub_le live 1).trans room))
    | value index =>
      have sooner : ¬(ArrayOp.value index).live live = 2 ^ 32 := by
        have next : (ArrayOp.value index).live live = live := rfl
        omega
      rw [afterRound, if_neg sooner]
      exact (and_iff_right trivial).trans (ih room)

/-- Before the counters come round there are `2 ^ 32` live elements. -/
theorem most_afterRound {ops : List ArrayOp} (found : afterRound ops live = some rest) :
    2 ^ 32 ≤ mostLive ops live := by
  induction ops generalizing live with
  | nil => cases found
  | cons op later ih =>
    rw [afterRound] at found
    rw [mostLive]
    by_cases round : op.live live = 2 ^ 32
    · exact le_trans (round ▸ le_mostLive later (op.live live)) (le_max_right _ _)
    · rw [if_neg round] at found
      exact (ih found).trans (le_max_right _ _)

/-! ## From the start -/

/-- For every size and number of slots a new array may be made with, and all calls whose `realloc`s
succeed: at no time are there more live elements than slots and every slot returned lies in the
bytes last requested, if and only if the most live elements fit. -/
theorem slots_inside_iff (ncount itemsize : BitVec 32) {granted : Bool} {answer : Option Nat}
    (made : dynamicArrayInit ncount itemsize granted answer = some array) (m : Bytes)
    (ops : List ArrayOp) (served : ∀ op ∈ ops, op.Served) :
    SlotsInside array m ops ↔ Ample ncount.toNat itemsize.toNat ops := by
  obtain ⟨counted, few⟩ : Counted itemsize.toNat array ⟨ncount.toNat, 0⟩ ∧
      array.nitem ≤ array.nmalloc := by
    obtain ⟨item, rfl⟩ := dynamicArrayInit_some made
    refine ⟨⟨rfl, rfl, rfl, ?_, Nat.zero_le _, Nat.zero_le _⟩, Nat.zero_le _⟩
    rw [BitVec.toNat_mul, Nat.mul_comm]
  rw [SlotsInside, and_iff_right few, contained_iff counted served m, Ample]
  by_cases corner : itemsize.toNat = 0 ∧ ncount.toNat = 2 ^ 32 - 1
  · obtain ⟨width, slots⟩ := corner
    rw [width, slots, along_first ops (Nat.zero_le _)]
    refine ⟨fun round => .inr ⟨rfl, rfl, round⟩, ?_⟩
    rintro (most | ⟨_, _, round⟩) rest found
    · have many := most_afterRound found
      rcases most with ⟨few', _⟩ | ⟨k, few', fits⟩
      · omega
      · have one : max 0 1 = 1 := rfl
        rw [one, Nat.one_mul] at fits
        omega
    · exact round rest found
  · have doubled : Doubled ncount.toNat itemsize.toNat 0 0 := by
      refine ⟨?_, Nat.zero_le _, Nat.zero_le _, .inl rfl⟩
      rw [pow_zero, Nat.mul_one]
      exact ncount.isLt
    have along := along_iff corner ops doubled
    rw [pow_zero, Nat.mul_one] at along
    rw [along, or_iff_left]
    exact fun round => corner ⟨round.1, round.2.1⟩

/-- One slot of four bytes doubles for a second element. -/
theorem slots_inside_doubled : SlotsInside ⟨0, 8, 4, 1, 4⟩ (fun _ => 0)
    [.push (some (8, fun _ => 0)) [], .push (some (8, fun _ => 0)) [], .pop, .value 0] := by
  have made : dynamicArrayInit 1 4 true (some 8) = some ⟨0, 8, 4, 1, 4⟩ := rfl
  refine (slots_inside_iff 1 4 made _ _ fun op member => ?_).mpr (.inl (.inr ⟨1, ?_, ?_⟩))
  · simp only [List.mem_cons, List.not_mem_nil, or_false] at member
    rcases member with rfl | rfl | rfl | rfl
    · rfl
    · rfl
    · trivial
    · trivial
  · decide
  · decide

/-- An array made for no elements doubles to none, and the slot of its first element is outside. -/
theorem slots_outside : ¬∀ (ncount itemsize : BitVec 32) (granted : Bool) (answer : Option Nat)
    (array : DynamicArray), dynamicArrayInit ncount itemsize granted answer = some array →
      ∀ (m : Bytes) (ops : List ArrayOp), (∀ op ∈ ops, op.Served) → SlotsInside array m ops := by
  intro always
  have served : ∀ op ∈ [ArrayOp.push (some (8, fun _ => 0)) []], op.Served := by
    intro op member
    obtain rfl := List.mem_singleton.mp member
    rfl
  obtain ⟨_, result, object, called, contained, _⟩ :=
    always 0 4 true (some 8) ⟨0, 8, 4, 0, 0⟩ rfl (fun _ => 0) _ served
  obtain ⟨rfl, rfl⟩ := Prod.mk.inj (Except.ok.inj called)
  have few : (1 : BitVec 32) ≤ 0 := contained.1
  exact absurd few (by decide)

end EpollNet
