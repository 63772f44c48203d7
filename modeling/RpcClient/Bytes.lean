/-
Strings of bytes, and the numbers in them. `little` and `big` write a number
of a fixed width with the lowest or with the highest byte first.
-/

namespace RpcClient

/-- A string of bytes. -/
abbrev Bytes := List UInt8

namespace Bytes

/-- The lowest `width` bytes of a number, the lowest first. -/
def little : (width : Nat) → Nat → Bytes
  | 0, _ => []
  | width + 1, n => UInt8.ofNat n :: little width (n / 256)

/-- The number that bytes make, the lowest first. -/
def ofLittle : Bytes → Nat
  | [] => 0
  | b :: rest => b.toNat + 256 * ofLittle rest

/-- The lowest `width` bytes of a number, the highest first. -/
def big (width n : Nat) : Bytes := (little width n).reverse

/-- The number that bytes make, the highest first. -/
def ofBig (bytes : Bytes) : Nat := ofLittle bytes.reverse

/-- The first `n` bytes and the rest, if there are so many. -/
def splitExact (n : Nat) (bytes : Bytes) : Option (Bytes × Bytes) :=
  go n [] bytes
where
  /-- `front` holds the bytes seen so far, the last one first. -/
  go : Nat → Bytes → Bytes → Option (Bytes × Bytes)
    | 0, front, rest => some (front.reverse, rest)
    | _ + 1, _, [] => none
    | n + 1, front, b :: rest => go n (b :: front) rest

end Bytes

end RpcClient
