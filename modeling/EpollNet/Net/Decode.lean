import EpollNet.Net.ConnObj

/-!
# `Decode` of `test_server.c`

`Decode` undoes the escaping of a frame between two `0x7e`. Every read is checked against the
length given, and the loop runs on fuel.
-/

namespace EpollNet

/-- How `Decode` may go wrong. -/
inductive DecodeFault where
  /-- It reads at an index that is not below the length. -/
  | outside
  /-- Its loop has not ended. -/
  | looping
deriving DecidableEq

/-- `data[i]`. -/
def loadByte (data : Memory) (len i : Nat) : Except DecodeFault UInt8 :=
  if i < len then .ok (data i) else .error .outside

/-- `data[i] == 0x7d && data[i+1] == second`. -/
def escapes (data : Memory) (len i : Nat) (second : UInt8) : Except DecodeFault Bool := do
  let c ← loadByte data len i
  if c = 0x7d then
    let d ← loadByte data len (i + 1)
    .ok (decide (d = second))
  else .ok false

/-- The loop of `Decode` from an index and an offset on: the offset it ends with. -/
def decodeLoop (data : Memory) (len : Nat) :
    Nat → Nat → Nat → Memory → Except DecodeFault (Nat × Memory)
  | 0, _, _, _ => .error .looping
  | fuel + 1, i, offset, out =>
    if i < len - 1 then do
      if ← escapes data len i 0x02 then
        decodeLoop data len fuel (i + 1 + 1) (offset + 1) (Function.update out offset 0x7e)
      else if ← escapes data len i 0x01 then
        decodeLoop data len fuel (i + 1 + 1) (offset + 1) (Function.update out offset 0x7d)
      else
        let c ← loadByte data len i
        decodeLoop data len fuel (i + 1) (offset + 1) (Function.update out offset c)
    else .ok (offset, out)

/-- `Decode`: what it returns, and `_data`. -/
def decode (data : Memory) (len : Nat) (out : Memory) : Except DecodeFault (Int × Memory) := do
  let first ← loadByte data len 0
  if first ≠ 0x7e then .ok (-1, out)
  else
    let last ← loadByte data len (len - 1)
    if last ≠ 0x7e then .ok (-1, out)
    else
      let (offset, out) ← decodeLoop data len len 1 1 (Function.update out 0 first)
      let last ← loadByte data len (len - 1)
      .ok (offset + 1, Function.update out offset last)

end EpollNet
