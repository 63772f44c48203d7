/-
Text as bytes, in UTF-8. `encode` writes; `decode` reads strictly: no
overlong form, no surrogate, nothing above U+10FFFF. Where the bytes are
wrong, the fault says how many were right before it and how many of the next
ones can be no part of any character.
-/
import RpcClient.Bytes

namespace RpcClient.Utf8

/-- Why bytes are not text. -/
inductive Fault where
  /-- After `valid` good bytes come `length` that no character has. -/
  | badSequence (valid length : Nat)
  /-- After `valid` good bytes a character begins that the end cuts off. -/
  | cutOff (valid : Nat)
deriving DecidableEq

namespace Fault

/-- The words for a fault. -/
def message : Fault → String
  | badSequence valid length =>
    "invalid utf-8 sequence of " ++ toString length ++ " bytes from index " ++ toString valid
  | cutOff valid => "incomplete utf-8 byte sequence from index " ++ toString valid

end Fault

/-- The bytes of a text. -/
def encode (s : String) : Bytes := s.toList.flatMap String.utf8EncodeChar

/-- Whether a byte can only stand inside a character. -/
def isContinuation (b : UInt8) : Bool := 0x80 ≤ b && b ≤ 0xBF

/-- The bits that a byte inside a character adds. -/
def tail (b : UInt8) : Nat := b.toNat % 64

/-- Whether `b` may follow the first byte `a` of a character of three. The
bounds exclude overlong forms and surrogates. -/
def secondOfThree (a b : UInt8) : Bool :=
  if a = 0xE0 then 0xA0 ≤ b && b ≤ 0xBF
  else if a = 0xED then 0x80 ≤ b && b ≤ 0x9F
  else isContinuation b

/-- Whether `b` may follow the first byte `a` of a character of four. The
bounds exclude overlong forms and what lies above U+10FFFF. -/
def secondOfFour (a b : UInt8) : Bool :=
  if a = 0xF0 then 0x90 ≤ b && b ≤ 0xBF
  else if a = 0xF4 then 0x80 ≤ b && b ≤ 0x8F
  else isContinuation b

/-- Reads characters: `valid` bytes lie behind, `seen` holds their
characters, the last one first. -/
def decodeFrom (valid : Nat) (seen : List Char) : Bytes → Except Fault String
  | [] => .ok (String.ofList seen.reverse)
  | a :: rest =>
    if a < 0x80 then decodeFrom (valid + 1) (Char.ofNat a.toNat :: seen) rest
    else if 0xC2 ≤ a && a ≤ 0xDF then
      match rest with
      | [] => .error (.cutOff valid)
      | b :: rest =>
        if isContinuation b then
          decodeFrom (valid + 2) (Char.ofNat (a.toNat % 32 * 64 + tail b) :: seen) rest
        else .error (.badSequence valid 1)
    else if 0xE0 ≤ a && a ≤ 0xEF then
      match rest with
      | [] => .error (.cutOff valid)
      | b :: rest =>
        if secondOfThree a b then
          match rest with
          | [] => .error (.cutOff valid)
          | c :: rest =>
            if isContinuation c then
              decodeFrom (valid + 3)
                (Char.ofNat (a.toNat % 16 * 4096 + tail b * 64 + tail c) :: seen) rest
            else .error (.badSequence valid 2)
        else .error (.badSequence valid 1)
    else if 0xF0 ≤ a && a ≤ 0xF4 then
      match rest with
      | [] => .error (.cutOff valid)
      | b :: rest =>
        if secondOfFour a b then
          match rest with
          | [] => .error (.cutOff valid)
          | c :: rest =>
            if isContinuation c then
              match rest with
              | [] => .error (.cutOff valid)
              | d :: rest =>
                if isContinuation d then
                  decodeFrom (valid + 4)
                    (Char.ofNat (a.toNat % 8 * 262144 + tail b * 4096 + tail c * 64 + tail d) ::
                      seen) rest
                else .error (.badSequence valid 3)
            else .error (.badSequence valid 2)
        else .error (.badSequence valid 1)
    else .error (.badSequence valid 1)

/-- The text that bytes spell. -/
def decode (bytes : Bytes) : Except Fault String := decodeFrom 0 [] bytes

/-- The text that bytes spell, if they do. -/
def decode? (bytes : Bytes) : Option String := (decode bytes).toOption

end RpcClient.Utf8
