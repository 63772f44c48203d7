/-
The small vocabulary of a call protocol: how a body is serialised, which side
opened a connection, how a call ended, and what kind of failure was reported.
Each has its written form or its one-byte code, and reading a code back gives
the value that has it.
-/

namespace RpcClient

/-- The version that both sides of a handshake announce. -/
def protocolVersion : UInt16 := 2

/-- Why a tag or a code stands for nothing. -/
inductive CodeError where
  | unknownScheme (tag : String)
  | unknownErrorKind (code : UInt8)
  | unknownReplyCode (code : UInt8)
  /-- Anything else, in its own words. -/
  | custom (text : String)
deriving DecidableEq

/-- A byte as `0x` and two digits. -/
def hexByte (b : UInt8) : String :=
  let digits := Nat.toDigits 16 b.toNat
  "0x" ++ String.ofList (List.replicate (2 - digits.length) '0' ++ digits)

namespace CodeError

/-- The words for an error. -/
def message : CodeError → String
  | unknownScheme tag => "Unknown arg scheme: " ++ tag
  | unknownErrorKind code => "Unknown error type code: " ++ hexByte code
  | unknownReplyCode code => "Unknown response code: " ++ hexByte code
  | custom text => text

end CodeError

/-! ## Schemes -/

/-- How the body of a call is serialised. -/
inductive Scheme where
  | raw | json | thrift
deriving DecidableEq

namespace Scheme

/-- All schemes, in the order of their numbers. -/
def all : List Scheme := [raw, json, thrift]

/-- The tag that stands for a scheme in a header. -/
def tag : Scheme → String
  | raw => "raw"
  | json => "json"
  | thrift => "thrift"

/-- The scheme with a tag. -/
def ofTag (tag : String) : Except CodeError Scheme :=
  match all.find? (·.tag == tag) with
  | some s => .ok s
  | none => .error (.unknownScheme tag)

theorem ofTag_tag (s : Scheme) : ofTag s.tag = .ok s := by cases s <;> rfl

end Scheme

/-! ## Directions -/

/-- Which side opened a connection. As a wish, `none` is content with
either. -/
inductive Direction where
  | none | inbound | outbound
deriving DecidableEq

namespace Direction

/-- All directions, in the order of their numbers. -/
def all : List Direction := [none, inbound, outbound]

def name : Direction → String
  | none => "None"
  | inbound => "Inbound"
  | outbound => "Outbound"

/-- Whether a connection opened in the direction `actual` meets a wish. -/
def accepts (wish actual : Direction) : Bool := wish = none || wish = actual

end Direction

/-! ## How a call ended -/

/-- What the other side's handler says of its own answer. -/
inductive ReplyCode where
  | ok | error
deriving DecidableEq

namespace ReplyCode

/-- Both codes, in the order of their numbers. -/
def all : List ReplyCode := [ok, error]

def name : ReplyCode → String
  | ok => "Ok"
  | error => "Error"

def code : ReplyCode → UInt8
  | ok => 0x00
  | error => 0x01

def ofCode (code : UInt8) : Except CodeError ReplyCode :=
  match all.find? (·.code == code) with
  | some c => .ok c
  | none => .error (.unknownReplyCode code)

theorem ofCode_code (c : ReplyCode) : ofCode c.code = .ok c := by cases c <;> rfl

end ReplyCode

/-! ## Kinds of failure -/

/-- What went wrong with a call, as the other side reports it. -/
inductive ErrorKind where
  | timeout | cancelled | busy | declined | unexpectedError | badRequest | networkError | unhealthy
  /-- The connection itself is of no more use. -/
  | fatalProtocolError
deriving DecidableEq

namespace ErrorKind

/-- All kinds, in the order of their numbers. -/
def all : List ErrorKind :=
  [timeout, cancelled, busy, declined, unexpectedError, badRequest, networkError, unhealthy,
    fatalProtocolError]

def name : ErrorKind → String
  | timeout => "Timeout"
  | cancelled => "Cancelled"
  | busy => "Busy"
  | declined => "Declined"
  | unexpectedError => "UnexpectedError"
  | badRequest => "BadRequest"
  | networkError => "NetworkError"
  | unhealthy => "Unhealthy"
  | fatalProtocolError => "FatalProtocolError"

def code : ErrorKind → UInt8
  | timeout => 0x01
  | cancelled => 0x02
  | busy => 0x03
  | declined => 0x04
  | unexpectedError => 0x05
  | badRequest => 0x06
  | networkError => 0x07
  | unhealthy => 0x08
  | fatalProtocolError => 0xFF

def ofCode (code : UInt8) : Except CodeError ErrorKind :=
  match all.find? (·.code == code) with
  | some k => .ok k
  | none => .error (.unknownErrorKind code)

theorem ofCode_code (k : ErrorKind) : ofCode k.code = .ok k := by cases k <;> rfl

end ErrorKind

end RpcClient
