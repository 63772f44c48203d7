/-
Text in double quotes, as it stands in a description of a value: a quote and
a backslash have a backslash before them, the usual control characters have
their short forms, and whatever else would not show is written by its number.
-/
import RpcClient.Text.Visible

namespace RpcClient.Text

/-- A character between quotes. -/
def escaped (c : Char) : List Char :=
  match c with
  | '"' => ['\\', '"']
  | '\\' => ['\\', '\\']
  | '\n' => ['\\', 'n']
  | '\r' => ['\\', 'r']
  | '\t' => ['\\', 't']
  | '\x00' => ['\\', '0']
  | c => if isVisible c then [c] else ['\\', 'u', '{'] ++ Nat.toDigits 16 c.toNat ++ ['}']

/-- A text in quotes. -/
def quoted (s : String) : String := String.ofList ('"' :: s.toList.flatMap escaped ++ ['"'])

/-- A value by its type's name and its fields, as in `Peer { score: 0 }`. -/
def record (name : String) (fields : List (String × String)) : String :=
  name ++ " \x7b " ++ String.intercalate ", " (fields.map fun (k, v) => k ++ ": " ++ v) ++ " \x7d"

/-- Values between brackets. -/
def listed (items : List String) : String := "[" ++ String.intercalate ", " items ++ "]"

/-- Keys and values between braces. -/
def mapped (entries : List (String × String)) : String :=
  "\x7b" ++ String.intercalate ", " (entries.map fun (k, v) => k ++ ": " ++ v) ++ "\x7d"

/-- A value in the parentheses of its constructor. -/
def applied (name value : String) : String := name ++ "(" ++ value ++ ")"

end RpcClient.Text
