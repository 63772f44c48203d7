/-
JSON documents. A number and a string are kept as they are spelled, without
the quotes, and members of an object keep their order and may repeat: what
they mean is decided by whoever reads the document. `Document.bytes` writes a
document without any blanks.
-/
import RpcClient.Bytes

namespace RpcClient.Json

/-- A JSON document. -/
inductive Document where
  | null
  | bool (value : Bool)
  | number (spelling : Bytes)
  | text (spelling : Bytes)
  | array (items : List Document)
  | object (members : List (Bytes × Document))

namespace Document

/-- The ASCII bytes of a word. -/
def word (s : String) : Bytes := s.toList.map fun c => UInt8.ofNat c.toNat

/-- Byte strings with a comma between each two. -/
def commaSeparated : List Bytes → Bytes
  | [] => []
  | first :: rest => first ++ rest.flatMap fun b => 0x2C :: b

/-- The written form of a document. -/
def bytes : Document → Bytes
  | null => word "null"
  | bool true => word "true"
  | bool false => word "false"
  | number spelling => spelling
  | text spelling => 0x22 :: spelling ++ [0x22]
  | array items => 0x5B :: commaSeparated (items.map bytes) ++ [0x5D]
  | object members =>
    0x7B :: commaSeparated
      (members.map fun member => 0x22 :: member.1 ++ [0x22, 0x3A] ++ member.2.bytes) ++ [0x7D]
termination_by document => sizeOf document
decreasing_by
  · simp only [array.sizeOf_spec]
    have := List.sizeOf_lt_of_mem ‹_ ∈ items›
    omega
  · simp only [object.sizeOf_spec]
    have := List.sizeOf_lt_of_mem ‹member ∈ members›
    have : sizeOf member = 1 + sizeOf member.1 + sizeOf member.2 := rfl
    omega

/-- How deep objects and arrays are nested in a document. -/
def depth : Document → Nat
  | array items => (items.map depth).foldl max 0 + 1
  | object members => (members.map fun member => member.2.depth).foldl max 0 + 1
  | _ => 0
termination_by document => sizeOf document
decreasing_by
  · simp only [array.sizeOf_spec]
    have := List.sizeOf_lt_of_mem ‹_ ∈ items›
    omega
  · simp only [object.sizeOf_spec]
    have := List.sizeOf_lt_of_mem ‹member ∈ members›
    have : sizeOf member = 1 + sizeOf member.1 + sizeOf member.2 := rfl
    omega

end Document

end RpcClient.Json
