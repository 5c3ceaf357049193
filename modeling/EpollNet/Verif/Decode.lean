import EpollNet.Basis.Escape
import EpollNet.Basis.Records
import EpollNet.Net.Decode

/-!
# Frames that are decoded

The loop of `Decode` reads the escaped bytes back. At the last of them it looks at the closing
delimiter, which is no code, so it never steps over it.
-/

namespace EpollNet

open EpollNet.Basis Escape

/-! ## The codes -/

/-- The byte before a code. -/
def frameMark : UInt8 := 0x7d

/-- The code of a byte. -/
def frameCode (c : UInt8) : Option UInt8 :=
  if c = 0x7e then some 0x02 else if c = 0x7d then some 0x01 else none

/-- The byte a code stands for. -/
def frameUndo (c : UInt8) : Option UInt8 :=
  if c = 0x02 then some 0x7e else if c = 0x01 then some 0x7d else none

/-- A payload between its delimiters. -/
def frame (payload : List UInt8) : List UInt8 :=
  0x7e :: (escape frameMark frameCode payload ++ [0x7e])

/-- Codes are told apart. -/
theorem frameUndo_code (x y : UInt8) (coded : frameCode x = some y) : frameUndo y = some x := by
  unfold frameCode at coded
  split at coded
  next delimiter =>
    obtain rfl := Option.some.inj coded
    rw [delimiter]
    rfl
  next =>
    split at coded
    next mark =>
      obtain rfl := Option.some.inj coded
      rw [mark]
      rfl
    next => cases coded

/-! ## The loop -/

variable {data : Memory} {len : Nat}

/-- A test for a code at an index with one behind it. -/
theorem escapes_eq {i : Nat} (inside : i + 1 < len) (second : UInt8) :
    escapes data len i second = .ok (decide (data i = frameMark ∧ data (i + 1) = second)) := by
  have here : i < len := by omega
  unfold escapes loadByte frameMark
  rw [if_pos here, if_pos inside]
  by_cases marked : data i = 0x7d
  · simp [bind, Except.bind, marked]
  · simp [bind, Except.bind, marked]

/-- One round of the loop. -/
theorem decodeLoop_round {i : Nat} (inside : i + 1 < len) (fuel offset : Nat) (out : Memory) :
    decodeLoop data len (fuel + 1) i offset out =
      if data i = frameMark ∧ (frameUndo (data (i + 1))).isSome = true then
        decodeLoop data len fuel (i + 1 + 1) (offset + 1)
          (Function.update out offset ((frameUndo (data (i + 1))).getD 0))
      else
        decodeLoop data len fuel (i + 1) (offset + 1) (Function.update out offset (data i)) := by
  have more : i < len - 1 := by omega
  have here : i < len := by omega
  rw [decodeLoop, if_pos more, escapes_eq inside, escapes_eq inside, loadByte, if_pos here]
  unfold frameUndo
  by_cases marked : data i = frameMark
  · by_cases delimiter : data (i + 1) = 0x02
    · simp [bind, Except.bind, marked, delimiter]
    · by_cases mark : data (i + 1) = 0x01
      · simp [bind, Except.bind, marked, mark]
      · simp [bind, Except.bind, marked, delimiter, mark]
  · simp [bind, Except.bind, marked]

/-- The loop writes what the bytes up to the delimiter read as, if the delimiter is no code. -/
theorem decodeLoop_unescape (closed : frameUndo (data (len - 1)) = none) {fuel left i : Nat}
    (all : i + left + 1 = len) (enough : left < fuel) (offset : Nat) (out : Memory) :
    decodeLoop data len fuel i offset out =
      .ok (offset + (unescape frameMark frameUndo (readAt data i left)).length,
        writeAt out offset (unescape frameMark frameUndo (readAt data i left))) := by
  induction fuel generalizing left i offset out with
  | zero => omega
  | succ fuel ih =>
    cases left with
    | zero =>
      have ended : ¬i < len - 1 := by omega
      have nothing : readAt data i 0 = [] := rfl
      rw [decodeLoop, if_neg ended, nothing, unescape, writeAt_nil]
      rfl
    | succ left =>
      rw [decodeLoop_round (by omega), readAt_succ]
      by_cases code : data i = frameMark ∧ (frameUndo (data (i + 1))).isSome = true
      · obtain ⟨z, undone⟩ := Option.isSome_iff_exists.mp code.2
        -- the byte behind the mark is ahead of the delimiter, which is no code
        have ahead : left ≠ 0 := by
          rintro rfl
          have last : i + 1 = len - 1 := by omega
          rw [last, closed] at undone
          cases undone
        obtain ⟨later, rfl⟩ := Nat.exists_eq_succ_of_ne_zero ahead
        have place : i + 1 + 1 + later + 1 = len := by omega
        rw [if_pos code, undone, code.1, readAt_succ, unescape_code undone, ih place (by omega),
          writeAt_cons, List.length_cons, Option.getD_some, Nat.add_assoc, Nat.add_comm 1]
      · have place : i + 1 + left + 1 = len := by omega
        have plain : data i = frameMark →
            ∀ y, (readAt data (i + 1) left).head? = some y → frameUndo y = none := by
          intro marked y next
          cases left with
          | zero => cases next
          | succ later =>
            rw [readAt_succ] at next
            obtain rfl := Option.some.inj next
            by_contra some'
            exact code ⟨marked, Option.isSome_iff_ne_none.mpr some'⟩
        rw [if_neg code, ih place (by omega), unescape_plain plain, writeAt_cons, List.length_cons,
          Nat.add_assoc, Nat.add_comm 1]

/-! ## Frames -/

/-- Bytes between two delimiters, whatever they are, are decoded to what they read as. -/
theorem decode_unescape {left : Nat} (all : left + 2 = len) (first : data 0 = 0x7e)
    (last : data (len - 1) = 0x7e) (out : Memory) :
    decode data len out =
      .ok (((unescape frameMark frameUndo (readAt data 1 left)).length + 2 : Nat),
        writeAt out 0 (0x7e :: (unescape frameMark frameUndo (readAt data 1 left) ++ [0x7e]))) := by
  have closed : frameUndo (data (len - 1)) = none := by
    rw [last]
    rfl
  have start : 0 < len := by omega
  have inside : len - 1 < len := by omega
  have place : 1 + left + 1 = len := by omega
  have looped := decodeLoop_unescape closed place (by omega : left < len) 1
    (Function.update out 0 0x7e)
  unfold decode loadByte
  simp only [start, inside, if_true, bind, Except.bind, first, last, ne_eq, not_true_eq_false,
    if_false, looped]
  rw [writeAt_cons, writeAt_append, writeAt_singleton, Nat.zero_add]
  congr 2
  omega

/-- A frame in memory: its delimiters, and its escaped payload between them. -/
theorem frame_read {payload : List UInt8}
    (framed : readAt data 0 (frame payload).length = frame payload) :
    data 0 = 0x7e ∧ data ((frame payload).length - 1) = 0x7e ∧
      readAt data 1 (escape frameMark frameCode payload).length =
        escape frameMark frameCode payload := by
  have length : (frame payload).length = (escape frameMark frameCode payload).length + 1 + 1 := by
    unfold frame
    rw [List.length_cons, List.length_append, List.length_singleton]
  rw [length, readAt_succ, readAt_concat] at framed
  obtain ⟨first, rest⟩ := List.cons.inj framed
  obtain ⟨inner, last⟩ := List.append_inj' rest rfl
  refine ⟨first, ?_, inner⟩
  rw [length, Nat.add_sub_cancel, Nat.add_comm]
  exact List.singleton_injective last

/-- A frame of any payload is decoded to the payload between the delimiters. And any two bytes or
more are read inside of their length, in a loop that ends, and refused or decoded to no more. -/
theorem decode_inverts (data out : Memory) :
    (∀ payload : List UInt8, readAt data 0 (frame payload).length = frame payload →
      decode data (frame payload).length out =
        .ok ((payload.length + 2 : Nat), writeAt out 0 (0x7e :: (payload ++ [0x7e])))) ∧
    ∀ len, 2 ≤ len → ∃ ret out', decode data len out = .ok (ret, out') ∧
      (ret = -1 ∧ out' = out ∨ ∃ bytes : List UInt8, ret = bytes.length ∧ bytes.length ≤ len ∧
        out' = writeAt out 0 bytes) := by
  constructor
  · intro payload framed
    obtain ⟨first, last, inner⟩ := frame_read framed
    have length : (escape frameMark frameCode payload).length + 2 = (frame payload).length := by
      unfold frame
      rw [List.length_cons, List.length_append, List.length_singleton]
    have marked : frameCode frameMark ≠ none := by decide
    rw [decode_unescape length first last, inner, unescape_escape frameUndo_code marked]
  · intro len two
    have start : 0 < len := by omega
    have inside : len - 1 < len := by omega
    by_cases first : data 0 = 0x7e
    · by_cases last : data (len - 1) = 0x7e
      · have all : len - 2 + 2 = len := by omega
        refine ⟨_, _, decode_unescape all first last out, .inr ⟨_, ?_, ?_, rfl⟩⟩
        · rw [List.length_cons, List.length_append, List.length_singleton]
        · have short : (unescape frameMark frameUndo (readAt data 1 (len - 2))).length ≤ _ :=
            unescape_length_le _
          rw [readAt_length] at short
          rw [List.length_cons, List.length_append, List.length_singleton]
          omega
      · refine ⟨-1, out, ?_, .inl ⟨rfl, rfl⟩⟩
        simp [decode, loadByte, start, inside, first, last, bind, Except.bind]
    · refine ⟨-1, out, ?_, .inl ⟨rfl, rfl⟩⟩
      simp [decode, loadByte, start, first, bind, Except.bind]

/-- A frame of both bytes that have codes and one that is a code. -/
theorem decode_inverts_codes :
    decode (writeAt (fun _ => 0) 0 [0x7e, 0x7d, 0x02, 0x7d, 0x01, 0x02, 0x7e]) 7 (fun _ => 0) =
      .ok (5, writeAt (fun _ => 0) 0 [0x7e, 0x7e, 0x7d, 0x02, 0x7e]) ∧
    ∃ ret out', decode (fun _ => 0x7d) 2 (fun _ => 0) = .ok (ret, out') ∧
      (ret = -1 ∧ out' = (fun _ => 0) ∨ ∃ bytes : List UInt8, ret = bytes.length ∧
        bytes.length ≤ 2 ∧ out' = writeAt (fun _ => 0) 0 bytes) :=
  ⟨(decode_inverts _ _).1 [0x7e, 0x7d, 0x02] (by decide),
    (decode_inverts (fun _ => 0x7d) (fun _ => 0)).2 2 (le_refl 2)⟩

end EpollNet
