import EpollNet.Net.ConnObj

/-!
# `cstr.c`

A string is the flexible array of a block with a header of two `unsigned int`s. `CStr_MackSpace`
asks `realloc` for a block of twice the length it wants, or of `CSTR_MAX_PREALLOC` bytes more,
header and terminator not counted.
-/

namespace EpollNet

/-- `sizeof(CStr)`. -/
def cstrHeader : Nat := 8

/-- `CSTR_MAX_PREALLOC`. -/
def cstrMaxPrealloc : Nat := 1024 * 1024

/-- The size of the block. -/
def CStr.block (str : CStr) : Nat := cstrHeader + str.buf.length

/-- What is read from the string on, up to the end of the block. -/
def Buf.memory (b : Buf) : Memory := fun i => b.str.buf.getD i 0

/-- An access outside a block. -/
inductive Outside where
  /-- It was made. -/
  | outside
deriving DecidableEq

/-- `CStr_Len`. -/
def cStrLen (srcstr : Buf) : Nat := srcstr.str.len

/-- `CStr_GetFreeLen`. -/
def cStrGetFreeLen (srcstr : Buf) : Nat := srcstr.str.freelen

/-- `CStr_Dup`, whose `memcpy` reads the whole length. -/
def cStrDup (h : Heap) (granted : Bool) (srcstr : Buf) : Except Outside (Option Buf × Heap) :=
  if granted ∧ cStrLen srcstr > srcstr.str.buf.length then .error .outside
  else .ok (cStrCreate h granted (some srcstr.memory) (cStrLen srcstr))

/-- The `newlen` of `CStr_MackSpace`, a `size_t`. -/
def cStrNewlen (len addlen : Nat) : Nat :=
  let newlen := (len + addlen) % 2 ^ 64
  if newlen < cstrMaxPrealloc then newlen * 2 else (newlen + cstrMaxPrealloc) % 2 ^ 64

/-- `CStr_MackSpace`. `realloc` answers with `NULL` or with what lies behind the bytes it kept; the
new `freelen` is stored behind the length, whether or not the block is that large. -/
def cStrMackSpace (h : Heap) (answer : Option Memory) (srcstr : Buf) (addlen : Nat) :
    Except Outside (Option Buf × Heap) :=
  if cStrGetFreeLen srcstr ≥ addlen then .ok (some srcstr, h)
  else
    let len := cStrLen srcstr
    let newlen := cStrNewlen len addlen
    match answer with
    | none => .ok (none, h)
    | some behind =>
      if newlen < cstrHeader then .error .outside
      else
        .ok (some ⟨h.next, ⟨len, (newlen + 2 ^ 64 - len) % 2 ^ 32,
            (behind.store srcstr.str.buf).copy (newlen - cstrHeader)⟩⟩,
          { next := h.next + 1, freed := srcstr.addr :: h.freed })

/-! ## Calls -/

/-- A call, on one of the strings built so far. -/
inductive CStrOp where
  /-- `CStr_Malloc`. -/
  | malloc (srcstr : Memory) (len : Int)
  /-- `CStr_Dup`. -/
  | dup (i : Nat)
  /-- `CStr_MackSpace`, with what `realloc` answers. -/
  | mackSpace (i addlen : Nat) (behind : Memory)

/-- The strings built so far, in the order they were. -/
structure Strings where
  /-- `malloc` and `free`. -/
  heap : Heap
  /-- The strings. -/
  built : List Buf

/-- A call whose allocation succeeds: the string it returns, and the strings afterwards. The string
`CStr_MackSpace` returns takes the place of the one it was given. -/
def Strings.call : CStrOp → Strings → Except Outside (Option Buf × Strings)
  | .malloc srcstr len, s =>
    match cStrMalloc s.heap true (some srcstr) len with
    | (made, heap) => .ok (made, ⟨heap, s.built ++ made.toList⟩)
  | .dup i, s =>
    match s.built[i]? with
    | none => .ok (none, s)
    | some srcstr => do
      let (made, heap) ← cStrDup s.heap true srcstr
      .ok (made, ⟨heap, s.built ++ made.toList⟩)
  | .mackSpace i addlen behind, s =>
    match s.built[i]? with
    | none => .ok (none, s)
    | some srcstr => do
      let (made, heap) ← cStrMackSpace s.heap (some behind) srcstr addlen
      .ok (made, ⟨heap, s.built.set i (made.getD srcstr)⟩)

end EpollNet
