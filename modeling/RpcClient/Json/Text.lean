/-
Text in JSON strings. `spell` writes a backslash before a quote and a
backslash and gives control characters their short form or their number;
everything else stands for itself. `unspell?` also takes the other escapes of
the grammar, with surrogates in pairs only.
-/
import RpcClient.Text.Utf8

namespace RpcClient.Json

/-- A lower-case hexadecimal digit. -/
def hexDigit (n : Nat) : UInt8 := if n < 10 then UInt8.ofNat (0x30 + n) else UInt8.ofNat (0x57 + n)

/-- A character inside a JSON string. -/
def spellChar (c : Char) : Bytes :=
  match c with
  | '"' => [0x5C, 0x22]
  | '\\' => [0x5C, 0x5C]
  | '\x08' => [0x5C, 0x62]
  | '\x09' => [0x5C, 0x74]
  | '\x0a' => [0x5C, 0x6E]
  | '\x0c' => [0x5C, 0x66]
  | '\x0d' => [0x5C, 0x72]
  | c =>
    if c.toNat < 0x20 then
      [0x5C, 0x75, 0x30, 0x30, hexDigit (c.toNat / 16), hexDigit (c.toNat % 16)]
    else String.utf8EncodeChar c

/-- A text inside the quotes of a JSON string. -/
def spell (s : String) : Bytes := s.toList.flatMap spellChar

/-- The value of a hexadecimal digit. -/
def hexValue? (b : UInt8) : Option Nat :=
  if 0x30 ≤ b && b ≤ 0x39 then some (b.toNat - 0x30)
  else if 0x41 ≤ b && b ≤ 0x46 then some (b.toNat - 0x37)
  else if 0x61 ≤ b && b ≤ 0x66 then some (b.toNat - 0x57)
  else none

/-- The value of four hexadecimal digits. -/
def hexFour? (a b c d : UInt8) : Option Nat := do
  pure (((← hexValue? a) * 16 + (← hexValue? b)) * 256 + ((← hexValue? c) * 16 + (← hexValue? d)))

/-- The byte that a one-letter escape stands for. -/
def shortEscape? (b : UInt8) : Option UInt8 :=
  match b with
  | 0x22 => some 0x22
  | 0x5C => some 0x5C
  | 0x2F => some 0x2F
  | 0x62 => some 0x08
  | 0x66 => some 0x0C
  | 0x6E => some 0x0A
  | 0x72 => some 0x0D
  | 0x74 => some 0x09
  | _ => none

/-- What the escapes of a spelling stand for, in UTF-8; `seen` holds the bytes
so far, the last one first. -/
def unescape (seen : Bytes) : Bytes → Option Bytes
  | [] => some seen.reverse
  | 0x5C :: 0x75 :: a :: b :: c :: d :: rest =>
    match hexFour? a b c d with
    | none => none
    | some unit =>
      if 0xD800 ≤ unit ∧ unit < 0xDC00 then
        match rest with
        | 0x5C :: 0x75 :: a :: b :: c :: d :: rest =>
          match hexFour? a b c d with
          | none => none
          | some low =>
            if 0xDC00 ≤ low ∧ low < 0xE000 then
              let c := Char.ofNat (0x10000 + (unit - 0xD800) * 0x400 + (low - 0xDC00))
              unescape ((String.utf8EncodeChar c).reverse ++ seen) rest
            else none
        | _ => none
      else if 0xDC00 ≤ unit ∧ unit < 0xE000 then none
      else unescape ((String.utf8EncodeChar (Char.ofNat unit)).reverse ++ seen) rest
  | 0x5C :: e :: rest =>
    match shortEscape? e with
    | some b => unescape (b :: seen) rest
    | none => none
  | 0x5C :: [] => none
  | b :: rest => unescape (b :: seen) rest

/-- The text that a spelling stands for. -/
def unspell? (spelling : Bytes) : Option String := (unescape [] spelling).bind Utf8.decode?

end RpcClient.Json
