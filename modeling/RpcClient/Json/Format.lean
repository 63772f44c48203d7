/-
What JSON documents stand for. A `Format` turns the values of one type into
documents and reads them back. Reading counts how deep objects and arrays are
nested: at most `deepest` of them may be open at one time. Members that a
record does not have are passed over, whatever is in them and however deep;
a member that it has may not come twice.
-/
import RpcClient.Dict
import RpcClient.Json.Parser
import RpcClient.Json.Text

namespace RpcClient.Json

/-- How many objects and arrays may be open at one time. -/
def deepest : Nat := 127

/-- How the values of a type stand in documents. -/
structure Format (α : Type) where
  /-- The document for a value; a map has none unless its keys are text. -/
  write : α → Option Document
  /-- The value of a document in which so many containers may be nested. -/
  read : Nat → Document → Option α

namespace Format

variable {α β : Type}

/-- The bytes of a value. -/
def encode (f : Format α) (a : α) : Option Bytes := (f.write a).map Document.bytes

/-- The value that bytes spell. -/
def decode? (f : Format α) (bytes : Bytes) : Option α := (parse? bytes).bind (f.read deepest)

/-! ## Numbers and words -/

/-- The digits of a number. -/
def spellInt (n : Int) : Bytes := Document.word (toString n)

/-- The number that digits make. -/
def ofDigits (digits : Bytes) : Nat := digits.foldl (fun n b => n * 10 + (b.toNat - 0x30)) 0

/-- The whole number that a spelling stands for. A point, an exponent and a
minus before a zero make it another sort of number. -/
def int? : Bytes → Option Int
  | 0x2D :: digits =>
    let n := ofDigits digits
    if digits.all State.isDigit && n ≠ 0 then some (-n) else none
  | digits => if digits.all State.isDigit then some (ofDigits digits) else none

/-- Whole numbers from `low` up to, and without, `high`. -/
def intBetween (low high : Int) : Format Int where
  write n := some (.number (spellInt n))
  read _ doc :=
    match doc with
    | .number spelling =>
      (int? spelling).bind fun n => if low ≤ n ∧ n < high then some n else none
    | _ => none

/-- The same documents for another type. -/
def via (f : Format α) (out : β → α) (back : α → β) : Format β where
  write b := f.write (out b)
  read depth doc := (f.read depth doc).map back

def u8 : Format UInt8 := (intBetween 0 UInt8.size).via (·.toNat) (fun n => UInt8.ofNat n.toNat)
def u16 : Format UInt16 := (intBetween 0 UInt16.size).via (·.toNat) (fun n => UInt16.ofNat n.toNat)
def u32 : Format UInt32 := (intBetween 0 UInt32.size).via (·.toNat) (fun n => UInt32.ofNat n.toNat)
def u64 : Format UInt64 := (intBetween 0 UInt64.size).via (·.toNat) (fun n => UInt64.ofNat n.toNat)
def i64 : Format Int64 :=
  (intBetween Int64.minValue.toInt (Int64.maxValue.toInt + 1)).via Int64.toInt Int64.ofInt

def unit : Format Unit where
  write _ := some .null
  read _ doc :=
    match doc with
    | .null => some ()
    | _ => none

def bool : Format Bool where
  write b := some (.bool b)
  read _ doc :=
    match doc with
    | .bool b => some b
    | _ => none

def text : Format String where
  write s := some (.text (spell s))
  read _ doc :=
    match doc with
    | .text spelling => unspell? spelling
    | _ => none

/-- A value, or `null` for none. -/
def option (f : Format α) : Format (Option α) where
  write
    | none => some .null
    | some a => f.write a
  read depth doc :=
    match doc with
    | .null => some none
    | doc => (f.read depth doc).map some

/-! ## Containers -/

/-- A list, as an array. -/
def list (f : Format α) : Format (List α) where
  write as := (as.mapM f.write).map .array
  read depth doc :=
    match depth, doc with
    | depth + 1, .array items => items.mapM (f.read depth)
    | _, _ => none

/-- The members of an object with their keys as text; every key must be. -/
def textKeys? (members : List (Bytes × Document)) : Option (List (String × Document)) :=
  members.mapM fun (key, value) => (unspell? key).map (·, value)

/-- The entries of a map with text for keys, as an object. -/
def textEntries (f : Format α) (entries : List (String × α)) : Option Document :=
  (entries.mapM fun (key, value) => (f.write value).map (spell key, ·)).map .object

/-- A map with text for keys, as an object. Of two members with one key the
later counts. -/
def textDict (f : Format α) : Format (Dict String α) where
  write d := textEntries f d.entries
  read depth doc :=
    match depth, doc with
    | depth + 1, .object members => do
      let members ← textKeys? members
      let entries ← members.mapM fun (key, value) => (f.read depth value).map (key, ·)
      pure (Dict.ofList entries)
    | _, _ => none

/-- A map whose keys are no text: only the empty one has a document. -/
def emptyDict [Ord α] [Std.TransOrd α] [Std.LawfulEqOrd α] : Format (Dict α β) where
  write d := if d.entries.isEmpty then some (.object []) else none
  read depth doc :=
    match depth, doc with
    | _ + 1, .object [] => some ∅
    | _, _ => none

/-- A list of one-byte numbers. -/
def bytes : Format Bytes := list u8

/-! ## Records -/

/-- The member with a key, if there is one. Two are too many. -/
def member? (members : List (String × Document)) (key : String) : Option (Option Document) :=
  match members.filter (·.1 == key) with
  | [] => some none
  | [(_, value)] => some (some value)
  | _ => none

/-- The fields of a record, and how many containers may be nested in each. A
record is an object, or an array with all fields in order. With `short` an
array may end early. -/
def fields? (names : List String) (short : Bool) (depth : Nat) (doc : Document) :
    Option (Nat × List (Option Document)) :=
  match depth, doc with
  | depth + 1, .object members => do
    let members ← textKeys? members
    pure (depth, ← names.mapM (member? members))
  | depth + 1, .array items =>
    if items.length = names.length then some (depth, items.map some)
    else if short && items.length < names.length then
      some (depth, items.map some ++ List.replicate (names.length - items.length) none)
    else none
  | _, _ => none

/-- A field that must be there. -/
def required (f : Format α) (depth : Nat) (field : Option Document) : Option α :=
  field.bind (f.read depth)

/-- A field that is none when it is not there. -/
def optional (f : Format α) (depth : Nat) (field : Option Document) : Option (Option α) :=
  match field with
  | none => some none
  | some doc => f.option.read depth doc

/-- A field with a value to fall back on. -/
def withDefault (f : Format α) (default : α) (depth : Nat) (field : Option Document) : Option α :=
  match field with
  | none => some default
  | some doc => f.read depth doc

/-- An object of fields that all have documents. -/
def object (fields : List (String × Option Document)) : Option Document := do
  let members ← fields.mapM fun (name, doc) => doc.map (spell name, ·)
  pure (.object members)

/-! ## Choices -/

/-- One of a list of names, as a string, or as the key of an object that holds
nothing but `null`. -/
def oneOf (choices : List α) (name : α → String) : Format α where
  write a := some (.text (spell (name a)))
  read depth doc :=
    match depth, doc with
    | _, .text spelling => named (unspell? spelling)
    | _ + 1, .object [(key, .null)] => named (unspell? key)
    | _, _ => none
where
  named (found : Option String) : Option α :=
    found.bind fun s => choices.find? (name · == s)

/-- A choice with content: an object whose only key is the choice. The answer
has the content and how many containers may be nested in it. -/
def chosen? (depth : Nat) (doc : Document) : Option (Nat × String × Document) :=
  match depth, doc with
  | depth + 1, .object [(key, value)] => (unspell? key).map (depth, ·, value)
  | _, _ => none

/-- The document of a choice with content. -/
def choice (name : String) (content : Option Document) : Option Document :=
  object [(name, content)]

end Format

end RpcClient.Json
