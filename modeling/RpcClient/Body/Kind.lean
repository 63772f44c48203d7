/-
The types that a body may have. Each kind has its values (`Kind.Value`), its
binary form and its document; a `Codec` is the choice between the two.
-/
import RpcClient.Body.Sample

namespace RpcClient

namespace Body

/-- What type a body has. -/
inductive Kind where
  | unit | bool | u8 | u16 | u32 | u64 | i64 | text | optionalText | bytes
  /-- Numbers under texts. -/
  | map
  /-- Bytes under pairs of bytes. -/
  | pairMap
  | account | ledger | node | scheme | direction | errorKind | replyCode | frame
deriving DecidableEq

namespace Kind

/-- The values of a kind. -/
abbrev Value : Kind → Type
  | unit => Unit
  | bool => Bool
  | u8 => UInt8
  | u16 => UInt16
  | u32 => UInt32
  | u64 => UInt64
  | i64 => Int64
  | text => String
  | optionalText => Option String
  | bytes => Bytes
  | map => Dict String Int64
  | pairMap => Dict BytePair UInt8
  | account => Account
  | ledger => Ledger
  | node => Node
  | scheme => Scheme
  | direction => Direction
  | errorKind => ErrorKind
  | replyCode => ReplyCode
  | frame => Frame

/-- The binary form of a kind. -/
def binary : (k : Kind) → Binary.Format k.Value
  | unit => .unit
  | bool => .bool
  | u8 => .u8
  | u16 => .u16
  | u32 => .u32
  | u64 => .u64
  | i64 => .i64
  | text => .text
  | optionalText => .option .text
  | bytes => .bytes
  | map => .dict .text .i64
  | pairMap => .dict .bytePair .u8
  | account => .account
  | ledger => .ledger
  | node => .node
  | scheme => .scheme
  | direction => .direction
  | errorKind => .errorKind
  | replyCode => .replyCode
  | frame => .frame

/-- The documents of a kind. -/
def json : (k : Kind) → Json.Format k.Value
  | unit => .unit
  | bool => .bool
  | u8 => .u8
  | u16 => .u16
  | u32 => .u32
  | u64 => .u64
  | i64 => .i64
  | text => .text
  | optionalText => .option .text
  | bytes => .bytes
  | map => .textDict .i64
  | pairMap => .emptyDict
  | account => .account
  | ledger => .ledger
  | node => .node
  | scheme => .scheme
  | direction => .direction
  | errorKind => .errorKind
  | replyCode => .replyCode
  | frame => .frame

end Kind

end Body

/-- A body with its type. -/
structure Body where
  kind : Body.Kind
  value : kind.Value

/-- A body that is nothing but bytes. -/
def Body.ofBytes (bytes : Bytes) : Body := ⟨.bytes, bytes⟩

end RpcClient
