import EpollNet.Basis.Calls
import EpollNet.Net.CStr

/-!
# What a string's block holds

`CStr_Create` asks for header, bytes and terminator. `CStr_MackSpace` asks for as many bytes as the
length and the free length it records, so its block is nine short of them, and a short string may
lose its last bytes or have no room for the header. Strings are sound as long as none grows.
-/

namespace EpollNet

open EpollNet.Basis

/-! ## What is demanded -/

/-- The block holds header, bytes, free bytes and the terminator. -/
def CStr.Holds (str : CStr) : Prop := cstrHeader + str.len + str.freelen + 1 ≤ str.block

instance (str : CStr) : Decidable str.Holds := inferInstanceAs (Decidable (_ ≤ _))

/-- What a call returns: a string; one of equal length and bytes; or one that has room as well. -/
def CStrOp.Returns : CStrOp → Strings → Option Buf → Prop
  | .malloc _ _, _, made => made.isSome = true
  | .dup i, s, made => ∀ srcstr, s.built[i]? = some srcstr →
      ∃ b, made = some b ∧ b.str.len = srcstr.str.len ∧ b.bytes = srcstr.bytes
  | .mackSpace i addlen _, s, made => ∀ srcstr, s.built[i]? = some srcstr →
      ∃ b, made = some b ∧ b.str.len = srcstr.str.len ∧ b.bytes = srcstr.bytes ∧
        addlen ≤ b.str.freelen ∧ cstrHeader + b.str.len + addlen + 1 ≤ b.str.block

/-- The call returns what it must, and after it every block holds its string. -/
def StringsSound (op : CStrOp) (s : Strings) (made : Option Buf) (s' : Strings) : Prop :=
  op.Returns s made ∧ ∀ b ∈ s'.built, b.str.Holds

/-- A source that is not empty, a string that was built, and lengths that are `unsigned int`s. -/
def CStrOp.May : CStrOp → Strings → Prop
  | .malloc _ len, _ => 0 < len ∧ len < 2 ^ 31
  | .dup i, s => i < s.built.length
  | .mackSpace i addlen _, s => ∃ srcstr, s.built[i]? = some srcstr ∧
      srcstr.str.len + addlen < 2 ^ 32

/-- The call asks for space. -/
def CStrOp.Grows : CStrOp → Prop
  | .mackSpace _ addlen _ => 0 < addlen
  | _ => False

/-! ## Single calls -/

/-- A string as `CStr_Create` makes it. -/
structure CStr.Created (str : CStr) : Prop where
  /-- It is not empty. -/
  nonempty : 0 < str.len
  /-- It has no space. -/
  full : str.freelen = 0
  /-- Its bytes and the terminator. -/
  exact : str.buf.length = str.len + 1

/-- The bytes copied are as many as were asked for. -/
@[simp] theorem length_copy (m : Memory) (n : Nat) : (m.copy n).length = n := by
  simp [Memory.copy]

/-- Copying a string copies its bytes. -/
theorem copy_memory (b : Buf) {n : Nat} (within : n ≤ b.str.buf.length) :
    b.memory.copy n = b.str.buf.take n := by
  apply List.ext_getElem
  · rw [length_copy, List.length_take, Nat.min_eq_left within]
  · intro i left right
    have small : i < n := by rwa [length_copy] at left
    have inside : i < b.str.buf.length := by omega
    simp [Memory.copy, Buf.memory, inside]

namespace CStr.Created

variable {str : CStr}

/-- A block that was just made holds its string. -/
theorem holds (created : str.Created) : str.Holds := by
  have full := created.full
  have exact := created.exact
  unfold CStr.Holds CStr.block
  omega

end CStr.Created

/-- `CStr_Create` copies a source that is not empty. -/
theorem cStrCreate_created (h : Heap) (src : Memory) {datalen : Nat} (some' : 0 < datalen) :
    ∃ b, (cStrCreate h true (some src) datalen).1 = some b ∧ b.str.Created ∧
      b.str.len = datalen ∧ b.bytes = src.copy datalen := by
  refine ⟨⟨h.next, ⟨datalen, 0, src.copy datalen ++ [0]⟩⟩, ?_, ⟨some', rfl, ?_⟩, rfl, ?_⟩
  · simp [cStrCreate, some']
  · rw [List.length_append, length_copy]
    rfl
  · unfold Buf.bytes
    exact List.take_left' (length_copy src datalen)

/-- The lengths `CStr_MackSpace` asks for do not come round. -/
theorem cStrNewlen_eq {len addlen : Nat} (small : len + addlen < 2 ^ 32) :
    cStrNewlen len addlen = if len + addlen < cstrMaxPrealloc then (len + addlen) * 2
      else len + addlen + cstrMaxPrealloc := by
  have prealloc : cstrMaxPrealloc = 1048576 := rfl
  have sum : (len + addlen) % 2 ^ 64 = len + addlen := Nat.mod_eq_of_lt (by omega)
  have more : (len + addlen + cstrMaxPrealloc) % 2 ^ 64 = len + addlen + cstrMaxPrealloc := by
    omega
  rw [cStrNewlen, sum, more]

/-- `CStr_MackSpace` on a string without the space. -/
theorem cStrMackSpace_eq {srcstr : Buf} {addlen : Nat} (little : srcstr.str.freelen < addlen)
    (h : Heap) (behind : Memory) : cStrMackSpace h (some behind) srcstr addlen =
      if cStrNewlen srcstr.str.len addlen < cstrHeader then .error .outside
      else .ok (some ⟨h.next, ⟨srcstr.str.len,
          (cStrNewlen srcstr.str.len addlen + 2 ^ 64 - srcstr.str.len) % 2 ^ 32,
          (behind.store srcstr.str.buf).copy (cStrNewlen srcstr.str.len addlen - cstrHeader)⟩⟩,
        { next := h.next + 1, freed := srcstr.addr :: h.freed }) := by
  have grows : ¬cStrGetFreeLen srcstr ≥ addlen := Nat.not_le.mpr little
  unfold cStrMackSpace
  exact if_neg grows

/-- A string that grows, unless its header does not fit the new block: the block is as large as the
length and the space together. -/
theorem cStrMackSpace_grown {h h' : Heap} {behind : Memory} {srcstr : Buf} {made : Option Buf}
    {addlen : Nat} (little : srcstr.str.freelen < addlen)
    (grown : cStrMackSpace h (some behind) srcstr addlen = .ok (made, h')) :
    ∃ b, made = some b ∧ b.str.len = srcstr.str.len ∧
      b.str.block = cStrNewlen srcstr.str.len addlen ∧
      b.str.freelen = (cStrNewlen srcstr.str.len addlen + 2 ^ 64 - srcstr.str.len) % 2 ^ 32 := by
  -- named, as the kernel would count to the `2 ^ 64` in it
  obtain ⟨space, named⟩ : ∃ space, space =
      (cStrNewlen srcstr.str.len addlen + 2 ^ 64 - srcstr.str.len) % 2 ^ 32 := ⟨_, rfl⟩
  rw [cStrMackSpace_eq little, ← named] at grown
  rw [← named]
  split at grown
  next small => cases grown
  next large =>
    have header : cstrHeader ≤ cStrNewlen srcstr.str.len addlen := Nat.not_lt.mp large
    obtain ⟨rfl, _⟩ := Prod.mk.inj (Except.ok.inj grown)
    refine ⟨_, rfl, rfl, ?_, rfl⟩
    rw [CStr.block, length_copy]
    exact Nat.add_sub_cancel' header

/-- A string that grew has too little space or a block too small for it. -/
theorem CStr.not_holds_grown {str : CStr} {len addlen : Nat} (small : len + addlen < 2 ^ 32)
    (length : str.len = len) (block : str.block = cStrNewlen len addlen)
    (freelen : str.freelen = (cStrNewlen len addlen + 2 ^ 64 - len) % 2 ^ 32)
    (enough : addlen ≤ str.freelen) : ¬str.Holds := by
  have prealloc : cstrMaxPrealloc = 1048576 := rfl
  unfold CStr.Holds
  rw [cStrNewlen_eq small] at block freelen
  by_cases doubled : len + addlen < cstrMaxPrealloc
  · rw [if_pos doubled] at block freelen
    omega
  · rw [if_neg doubled] at block freelen
    omega

/-! ## Sequences of calls -/

section Calls

variable {s : Strings}

/-- Every string is as `CStr_Create` makes it. -/
def Strings.Created (s : Strings) : Prop := ∀ b ∈ s.built, b.str.Created

/-- Blocks that were just made hold their strings. -/
theorem Strings.Created.holds (created : s.Created) : ∀ b ∈ s.built, b.str.Holds :=
  fun b member => (created b member).holds

/-- Another string as `CStr_Create` makes it. -/
theorem Strings.Created.append (created : s.Created) {b : Buf} (new : b.str.Created) (h : Heap) :
    (⟨h, s.built ++ [b]⟩ : Strings).Created := by
  intro b' member
  rcases List.mem_append.mp member with old | last
  · exact created b' old
  · obtain rfl := List.mem_singleton.mp last
    exact new

/-- `CStr_Malloc` adds a string. -/
theorem malloc_sound (created : s.Created) (srcstr : Memory) {len : Int} (positive : 0 < len)
    (isInt : len < 2 ^ 31) : ∃ made s', s.call (.malloc srcstr len) = .ok (made, s') ∧
      StringsSound (.malloc srcstr len) s made s' ∧ s'.Created := by
  have some' : 0 < (len % 2 ^ 64).toNat := by omega
  obtain ⟨b, made, new, _, _⟩ := cStrCreate_created s.heap srcstr some'
  have made' : (cStrMalloc s.heap true (some srcstr) len).1 = some b := made
  have created' := created.append new (cStrMalloc s.heap true (some srcstr) len).2
  refine ⟨some b, _, ?_, ⟨rfl, created'.holds⟩, created'⟩
  simp only [Strings.call, made', Option.toList_some]

/-- `CStr_Dup` adds a string of equal length and bytes. -/
theorem dup_sound (created : s.Created) {i : Nat} (may : i < s.built.length) :
    ∃ made s', s.call (.dup i) = .ok (made, s') ∧ StringsSound (.dup i) s made s' ∧
      s'.Created := by
  have found : s.built[i]? = some s.built[i] := List.getElem?_eq_getElem may
  have old := created _ (List.mem_of_getElem? found)
  have within : s.built[i].str.len ≤ s.built[i].str.buf.length := by
    rw [old.exact]
    exact Nat.le_succ _
  obtain ⟨b, made, new, length, bytes⟩ :=
    cStrCreate_created s.heap s.built[i].memory old.nonempty
  have created' := created.append new
    (cStrCreate s.heap true (some s.built[i].memory) s.built[i].str.len).2
  refine ⟨some b, _, ?_, ⟨fun srcstr same => ?_, created'.holds⟩, created'⟩
  · have inside : ¬s.built[i].str.len > s.built[i].str.buf.length := Nat.not_lt.mpr within
    simp only [Strings.call, found, cStrDup, cStrLen, true_and, inside, if_false, bind,
      Except.bind, made, Option.toList_some]
  · obtain rfl := Option.some.inj (found.symm.trans same)
    exact ⟨b, rfl, length, bytes.trans (copy_memory _ within)⟩

/-- `CStr_MackSpace` for no space returns the string it is given. -/
theorem mackSpace_sound (created : s.Created) {i : Nat} {srcstr : Buf}
    (found : s.built[i]? = some srcstr) (behind : Memory) :
    ∃ made s', s.call (.mackSpace i 0 behind) = .ok (made, s') ∧
      StringsSound (.mackSpace i 0 behind) s made s' ∧ s'.Created := by
  have kept : s.built.set i srcstr = s.built := by
    obtain ⟨bound, rfl⟩ := List.getElem?_eq_some_iff.mp found
    exact List.set_getElem_self bound
  refine ⟨some srcstr, s, ?_, ⟨fun srcstr' same => ?_, created.holds⟩, created⟩
  · have enough : cStrGetFreeLen srcstr ≥ 0 := Nat.zero_le _
    simp only [Strings.call, found, cStrMackSpace, if_pos enough, bind, Except.bind,
      Option.getD_some, kept]
  · obtain rfl := Option.some.inj (found.symm.trans same)
    have old := created _ (List.mem_of_getElem? found)
    have holds := old.holds
    unfold CStr.Holds at holds
    rw [old.full] at holds
    exact ⟨srcstr, rfl, rfl, rfl, Nat.zero_le _, holds⟩

/-- A call that asks for no space is sound. -/
theorem sound_of_not_grows {op : CStrOp} (created : s.Created) (may : op.May s)
    (idle : ¬op.Grows) :
    ∃ made s', s.call op = .ok (made, s') ∧ StringsSound op s made s' ∧ s'.Created := by
  cases op with
  | malloc srcstr len => exact malloc_sound created srcstr may.1 may.2
  | dup i => exact dup_sound created may
  | mackSpace i addlen behind =>
    obtain ⟨srcstr, found, _⟩ := may
    obtain rfl : addlen = 0 := Nat.eq_zero_of_not_pos idle
    exact mackSpace_sound created found behind

/-- A call that asks for space is not. -/
theorem not_sound_of_grows {op : CStrOp} (created : s.Created) (may : op.May s) (grows : op.Grows)
    {made : Option Buf} {s' : Strings} (called : s.call op = .ok (made, s')) :
    ¬StringsSound op s made s' := by
  cases op with
  | malloc srcstr len => exact grows.elim
  | dup i => exact grows.elim
  | mackSpace i addlen behind =>
    obtain ⟨srcstr, found, small⟩ := may
    have old := created _ (List.mem_of_getElem? found)
    have little : srcstr.str.freelen < addlen := by
      rw [old.full]
      exact grows
    rintro ⟨returns, holds⟩
    obtain ⟨b, rfl, _, _, enough, _⟩ := returns srcstr found
    cases grown : cStrMackSpace s.heap (some behind) srcstr addlen with
    | error e => simp [Strings.call, found, grown, bind, Except.bind] at called
    | ok result =>
      obtain ⟨made, heap⟩ := result
      simp only [Strings.call, found, grown, bind, Except.bind, Except.ok.injEq,
        Prod.mk.injEq] at called
      obtain ⟨rfl, rfl⟩ := called
      obtain ⟨b', same, length, block, freelen⟩ := cStrMackSpace_grown little grown
      obtain rfl := Option.some.inj same
      have placed : b ∈ s.built.set i b := by
        obtain ⟨bound, _⟩ := List.getElem?_eq_some_iff.mp found
        exact List.mem_set bound b
      exact CStr.not_holds_grown small length block freelen enough (holds b placed)

/-- Calls on strings that were just made are sound throughout if and only if none asks for
space. -/
theorem strings_sound_iff (h : Heap) (ops : List CStrOp)
    (permitted : Permitted Strings.call CStrOp.May ops ⟨h, []⟩) :
    Throughout Strings.call StringsSound ops ⟨h, []⟩ ↔ ∀ op ∈ ops, ¬op.Grows := by
  have along : Along (fun _ (value : Unit) => value) (fun op _ => ¬op.Grows) ops () ↔
      ∀ op ∈ ops, ¬op.Grows := along_all
  rw [← along]
  refine throughout_iff (fun s _ => s.Created) ?_ ?_ ?_ permitted
  · intro op s _ created may idle
    exact sound_of_not_grows created may idle
  · intro op s _ created may grows made s' called
    exact not_sound_of_grows created may (not_not.mp grows) called
  · intro b member
    exact absurd member List.not_mem_nil

end Calls

namespace Sample

/-- A string of three bytes is built, and asked for some space. -/
def spacing (addlen : Nat) : List CStrOp :=
  [.malloc (fun _ => 65) 3, .mackSpace 0 addlen fun _ => 0]

/-- The string built first. -/
def three : Buf := ⟨0, ⟨3, 0, [65, 65, 65, 0]⟩⟩

/-- Such calls may be made. -/
theorem spacing_permitted (addlen : Nat) (small : 3 + addlen < 2 ^ 32) :
    Permitted Strings.call CStrOp.May (spacing addlen) ⟨⟨0, []⟩, []⟩ := by
  have built : Strings.call (.malloc (fun _ => 65) 3) ⟨⟨0, []⟩, []⟩ =
      .ok (some three, ⟨⟨1, []⟩, [three]⟩) := rfl
  exact .cons ⟨by decide, by decide⟩ built ⟨⟨three, rfl, small⟩, fun _ _ _ => trivial⟩

end Sample

/-- A string of three bytes asked for no space. -/
theorem strings_sound_spare :
    Throughout Strings.call StringsSound (Sample.spacing 0) ⟨⟨0, []⟩, []⟩ := by
  refine (strings_sound_iff _ _ (Sample.spacing_permitted 0 (by decide))).mpr fun op member => ?_
  simp only [Sample.spacing, List.mem_cons, List.not_mem_nil, or_false] at member
  rcases member with rfl | rfl
  · exact not_false
  · exact lt_irrefl 0

/-- Asked for five, it is in a block of sixteen bytes for eight of the header, three, thirteen free
ones and the terminator. -/
theorem strings_unsound : ¬∀ (h : Heap) (ops : List CStrOp),
    Permitted Strings.call CStrOp.May ops ⟨h, []⟩ →
      Throughout Strings.call StringsSound ops ⟨h, []⟩ := by
  intro always
  obtain ⟨made, s', built, _, made', s'', grown, sound, _⟩ :=
    always _ _ (Sample.spacing_permitted 5 (by decide))
  obtain ⟨rfl, rfl⟩ := Prod.mk.inj (Except.ok.inj built)
  obtain ⟨rfl, rfl⟩ := Prod.mk.inj (Except.ok.inj grown)
  have holds := sound.2 _ (List.mem_singleton_self _)
  exact absurd holds (by decide)

end EpollNet
