/-
Codecs: the two ways to make bytes of a body, and which of them belongs to
which scheme of arguments.
-/
import RpcClient.Body.Kind

namespace RpcClient

/-- Why a body could not be encoded or decoded. -/
inductive CodecFault where
  | binary (fault : Binary.Fault)
  /-- The bytes are no document for the type. -/
  | document
  /-- The bytes begin with the name of a choice, without its content. -/
  | bareChoice
  /-- A document cannot have keys that are not text. -/
  | keyNotText
  /-- Anything else, in its own words. -/
  | custom (text : String)
deriving DecidableEq

namespace CodecFault

/-- The words for a fault. -/
def message : CodecFault → String
  | binary fault => fault.message
  | document => "<json>"
  | bareChoice => "invalid type: unit variant, expected newtype variant"
  | keyNotText => "key must be a string"
  | custom text => text

end CodecFault

/-- A way to make bytes of bodies. -/
inductive Codec where
  | json | binary
deriving DecidableEq

namespace Codec

/-- The bytes of a value. -/
def encode (codec : Codec) (kind : Body.Kind) (value : kind.Value) : Except CodecFault Bytes :=
  match codec with
  | binary => .ok (kind.binary.write value)
  | json =>
    match kind.json.encode value with
    | some bytes => .ok bytes
    | none => .error .keyNotText

/-- The value at the front of a byte string, or all of it for documents. -/
def decode (codec : Codec) (kind : Body.Kind) (bytes : Bytes) : Except CodecFault kind.Value :=
  match codec with
  | binary =>
    match kind.binary.read bytes with
    | .ok (value, _) => .ok value
    | .error fault => .error (.binary fault)
  | json =>
    match kind.json.decode? bytes with
    | some value => .ok value
    | none =>
      if kind = .frame && Json.Format.namesFrame bytes then .error .bareChoice
      else .error .document

/-- The bytes of a body. -/
def encodeBody (codec : Codec) (body : Body) : Except CodecFault Bytes :=
  codec.encode body.kind body.value

/-- The body of a known type that bytes spell. -/
def decodeBody (codec : Codec) (kind : Body.Kind) (bytes : Bytes) : Except CodecFault Body :=
  (codec.decode kind bytes).map fun value => ⟨kind, value⟩

end Codec

/-- Which codec belongs to which scheme. Raw bodies are bytes already, so
there is none for them unless one is put in. -/
structure Codecs where
  raw : Option Codec := none
  json : Option Codec := some .json
  thrift : Option Codec := some .binary
deriving DecidableEq

namespace Codecs

/-- The same, with another codec for one scheme. -/
def set (codecs : Codecs) (scheme : Scheme) (codec : Codec) : Codecs :=
  match scheme with
  | .raw => { codecs with raw := some codec }
  | .json => { codecs with json := some codec }
  | .thrift => { codecs with thrift := some codec }

/-- The codec for a scheme, if it has one. -/
def find? (codecs : Codecs) : Scheme → Option Codec
  | .raw => codecs.raw
  | .json => codecs.json
  | .thrift => codecs.thrift

theorem find?_set_self (codecs : Codecs) (s : Scheme) (c : Codec) :
    (codecs.set s c).find? s = some c := by cases s <;> rfl

theorem find?_set_other (codecs : Codecs) {s t : Scheme} (c : Codec) (h : t ≠ s) :
    (codecs.set s c).find? t = codecs.find? t := by
  cases s <;> cases t <;> first | rfl | exact absurd rfl h

end Codecs

end RpcClient
