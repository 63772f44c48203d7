/-
The binary format, as a set of parts that are put together. A `Format` writes
values of one type and reads them back from the front of a byte string.
Numbers have a fixed width, the lowest byte first; text, lists and maps begin
with their length in eight bytes; an optional value begins with a byte 0
or 1; a choice begins with its number in four bytes; fields simply follow each
other. Nothing marks the end of a value, so what follows it is left alone.
-/
import RpcClient.Dict
import RpcClient.Text.Utf8

namespace RpcClient.Binary

/-- Why bytes are no written value. -/
inductive Fault where
  /-- The bytes end inside a number, a flag or a length. -/
  | endOfInput
  /-- A text is said to be longer than all that follows. -/
  | shortText
  | badText (fault : Utf8.Fault)
  | badBool (found : UInt8)
  /-- The byte before an optional value is neither 0 nor 1. -/
  | badOption (found : UInt8)
  /-- There are only `count` choices. -/
  | badChoice (found : UInt32) (count : Nat)
deriving DecidableEq

namespace Fault

/-- The words for a fault. -/
def message : Fault → String
  | endOfInput => "io error: unexpected end of file"
  | shortText => "io error: "
  | badText fault => "string is not valid utf8: " ++ fault.message
  | badBool found => "invalid u8 while decoding bool, expected 0 or 1, found " ++
      toString found.toNat
  | badOption found => "tag for enum is not valid, found " ++ toString found.toNat
  | badChoice found count => "invalid value: integer \x60" ++ toString found.toNat ++
      "\x60, expected variant index 0 <= i < " ++ toString count

end Fault

/-- Takes a value off the front of a byte string. -/
abbrev Reader (α : Type) := Bytes → Except Fault (α × Bytes)

/-- How the values of a type are written, and how they are read back. -/
structure Format (α : Type) where
  write : α → Bytes
  read : Reader α

namespace Format

variable {α β : Type}

/-! ## Parts -/

/-- Reads a number of `width` bytes. -/
def readNumber (width : Nat) : Reader Nat := fun bytes =>
  match Bytes.splitExact width bytes with
  | some (front, rest) => .ok (Bytes.ofLittle front, rest)
  | none => .error .endOfInput

/-- Numbers of `width` bytes. -/
def number (width : Nat) : Format Nat := ⟨Bytes.little width, readNumber width⟩

/-- The same written forms for another type. -/
def via (f : Format α) (out : β → α) (back : α → β) : Format β where
  write b := f.write (out b)
  read bytes := do
    let (a, rest) ← f.read bytes
    .ok (back a, rest)

/-- The same, where some written values stand for nothing. -/
def viaChecked (f : Format α) (out : β → α) (back : α → Except Fault β) : Format β where
  write b := f.write (out b)
  read bytes := do
    let (a, rest) ← f.read bytes
    let b ← back a
    .ok (b, rest)

def u8 : Format UInt8 := (number 1).via UInt8.toNat UInt8.ofNat
def u16 : Format UInt16 := (number 2).via UInt16.toNat UInt16.ofNat
def u32 : Format UInt32 := (number 4).via UInt32.toNat UInt32.ofNat
def u64 : Format UInt64 := (number 8).via UInt64.toNat UInt64.ofNat

/-- Signed numbers, as their remainder modulo 2 ^ 64. -/
def i64 : Format Int64 := u64.via Int64.toUInt64 UInt64.toInt64

/-- How many items follow. -/
def count : Format Nat := number 8

def unit : Format Unit := ⟨fun _ => [], fun bytes => .ok ((), bytes)⟩

def bool : Format Bool :=
  u8.viaChecked (fun b => if b then 1 else 0) fun x =>
    if x = 0 then .ok false else if x = 1 then .ok true else .error (.badBool x)

/-- One of a list of values, as its place in the list. -/
def oneOf [DecidableEq α] (choices : List α) : Format α :=
  u32.viaChecked (fun a => UInt32.ofNat (choices.idxOf a)) fun i =>
    match choices[i.toNat]? with
    | some a => .ok a
    | none => .error (.badChoice i choices.length)

/-- Text: the number of its bytes, and these. -/
def text : Format String where
  write s := let bytes := Utf8.encode s; count.write bytes.length ++ bytes
  read bytes := do
    let (length, rest) ← count.read bytes
    match Bytes.splitExact length rest with
    | none => .error .shortText
    | some (front, rest) =>
      match Utf8.decode front with
      | .ok s => .ok (s, rest)
      | .error fault => .error (.badText fault)

/-- A value or none. -/
def option (f : Format α) : Format (Option α) where
  write
    | none => [0]
    | some a => 1 :: f.write a
  read bytes := do
    let (mark, rest) ← u8.read bytes
    if mark = 0 then .ok (none, rest)
    else if mark = 1 then
      let (a, rest) ← f.read rest
      .ok (some a, rest)
    else .error (.badOption mark)

/-- One value after another. -/
def pair (f : Format α) (g : Format β) : Format (α × β) where
  write p := f.write p.1 ++ g.write p.2
  read bytes := do
    let (a, rest) ← f.read bytes
    let (b, rest) ← g.read rest
    .ok ((a, b), rest)

/-- Reads a value `n` times; `seen` holds what was read before, the last one
first. -/
def readMany (read : Reader α) : (n : Nat) → (seen : List α) → Reader (List α)
  | 0, seen, bytes => .ok (seen.reverse, bytes)
  | n + 1, seen, bytes =>
    match read bytes with
    | .ok (a, rest) => readMany read n (a :: seen) rest
    | .error fault => .error fault

/-- Any number of values: how many there are, and these. -/
def list (f : Format α) : Format (List α) where
  write as := count.write as.length ++ as.flatMap f.write
  read bytes := do
    let (n, rest) ← count.read bytes
    readMany f.read n [] rest

/-- The entries of a map, in any order. Of two with one key the later
counts. -/
def dict [Ord α] [Std.TransOrd α] [Std.LawfulEqOrd α] (key : Format α) (value : Format β) :
    Format (Dict α β) :=
  (list (key.pair value)).via Dict.entries Dict.ofList

/-- Strings of bytes, as lists of numbers. -/
def bytes : Format Bytes := list u8

end Format

end RpcClient.Binary
