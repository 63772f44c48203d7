/-
What comes in at the stream of a connection, read by itself: which payloads the bytes
are, and where the stream fails (`inbound`). For a connection that is identified each of
them is about one call (`answer?`), or breaks the connection (`cause?`), or means
nothing, whatever calls there are.
-/
import RpcClient.Connection.Event

namespace RpcClient

/-- Something that comes in: a whole payload, or the stream cannot be read on. -/
inductive Inbound where
  | payload (bytes : Bytes)
  | failed (error : LinkError)
deriving DecidableEq

namespace Inbound

/-- Why this breaks a connection, if it does. -/
def cause? (i : Inbound) : Option Error :=
  match i with
  | .failed error => some (.link error)
  | .payload bytes =>
    match Codec.binary.decode .frame bytes with
    | .error fault => some (.link (.codec fault))
    | .ok (.error report) =>
      if report.kind = .fatalProtocolError then some (.remote report.kind report.message) else none
    | .ok _ => none

/-- The number of the call that this is about, and how the call ends. -/
def answer? (i : Inbound) : Option (UInt32 × Outcome Bytes) :=
  match i with
  | .failed _ => none
  | .payload bytes =>
    match Codec.binary.decode .frame bytes with
    | .ok (.callResponse reply) => some (reply.id, .ok (.ofReply reply))
    | .ok (.error report) =>
      if report.kind = .fatalProtocolError then none
      else some (report.id, .error (.remote report.kind report.message))
    | _ => none

/-! ## In a sequence -/

/-- The first cause for which a connection breaks. -/
def causeOf (items : List Inbound) : Option Error := items.findSome? cause?

/-- What comes in before that and is about calls. -/
def answersOf (items : List Inbound) : List (UInt32 × Outcome Bytes) :=
  (items.takeWhile fun i => i.cause?.isNone).filterMap answer?

/-- How a call ends that waits under a number: by the first answer that names it, or
else with its connection. -/
def fateOf (items : List Inbound) (id : UInt32) : Option (Outcome Bytes) :=
  ((answersOf items).lookup id).or ((causeOf items).map fun cause => .error (.network cause))

end Inbound

namespace FrameReader

/-- Reads all frames that end in some bytes, up to a length that is none. -/
def readAll (inp : FrameReader) : Bytes → FrameReader × List Inbound
  | [] => (inp, [])
  | b :: bytes =>
    match inp.push b with
    | (inp, none) => readAll inp bytes
    | (inp, some (.ok whole)) =>
      let (inp, items) := readAll inp bytes
      (inp, .payload whole :: items)
    | (inp, some (.error fault)) => (inp, [.failed (.invalidFrame fault)])

end FrameReader

namespace Connection

/-- Whether an event is one by which no write fails, no deadline passes and nobody gives
up the connection. -/
def Event.isCalm : Event → Bool
  | .writeFailed _ | .expire _ | .clean => false
  | _ => true

/-- What comes in with an event, and how far the last frame has been read. -/
def inboundOf (inp : FrameReader) : Event → FrameReader × List Inbound
  | .arrived bytes => inp.readAll bytes
  | .readFailed error => (inp, [.failed error])
  | _ => (inp, [])

/-- All that comes in during a run. -/
def inbound (inp : FrameReader) : List Event → List Inbound
  | [] => []
  | e :: events => (inboundOf inp e).2 ++ inbound (inboundOf inp e).1 events

end Connection

end RpcClient
