/-
A client and the other side of one of its connections. Between the two is a
stream of bytes each way, which loses nothing and keeps the order. The other
side answers each call that it hears once, when and in what order it likes, and
says what it wants in between, as long as that concerns no call that waits.

A conversation goes on in small steps. The client goes through any events,
those of its other connections among them; only where bytes move on this
connection, they move at the other side too.
-/
import RpcClient.Body.Arrangement
import RpcClient.Client.Event

namespace RpcClient

/-- What the other side makes of a call. -/
abbrev Answerer := Call → Response Bytes

/-- The reply to a call that carries a response. -/
def Call.reply (call : Call) (response : Response Bytes) : Reply where
  id := call.id
  code := response.code
  headers := response.headers
  transportHeaders := response.transportHeaders
  body := response.body

/-- The call that a frame that comes in is taken to be about. -/
def Frame.concerns? : Frame → Option UInt32
  | callResponse reply => some reply.id
  | error report => some report.id
  | _ => none

/-! ## The other side -/

/-- A frame that the other side has sent, as it wrote it. -/
inductive Parcel where
  /-- The answer to the call at a place among those that were heard. -/
  | answer (place : Nat) (payload : Bytes)
  | other (frame : Frame) (payload : Bytes)

namespace Parcel

def payload : Parcel → Bytes
  | answer _ payload | other _ payload => payload

def place? : Parcel → Option Nat
  | answer place _ => some place
  | other _ _ => none

end Parcel

/-- What is between a connection and the other side, and what that side has
done. -/
structure FarSide where
  /-- The bytes on their way to the other side. -/
  up : Bytes := []
  /-- What it has read of the next frame. -/
  reader : FrameReader := .start
  /-- The calls that it has heard, in their order. -/
  heard : List Call := []
  /-- The places of the calls that it has answered, in the order of the answers. -/
  answered : List Nat := []
  /-- What it has sent and the client has not read to the end. -/
  mail : List Parcel := []
  /-- How many bytes the client has read of the first of these. -/
  seen : Nat := 0

namespace FarSide

/-- The bytes on their way to the client. -/
def down (x : FarSide) : Bytes := (x.mail.flatMap fun p => Framing.framed p.payload).drop x.seen

/-- The other side reads a byte. -/
def hear (x : FarSide) : FarSide :=
  match x.up with
  | [] => x
  | b :: up =>
    match x.reader.push b with
    | (reader, some (.ok payload)) =>
      match Codec.binary.decode .frame payload with
      | .ok (.callRequest call) => { x with up, reader, heard := x.heard ++ [call] }
      | _ => { x with up, reader }
    | (reader, _) => { x with up, reader }

/-- The client has read a byte. -/
def pass (x : FarSide) : FarSide :=
  match x.mail with
  | [] => x
  | p :: mail =>
    if x.seen + 1 = (Framing.framed p.payload).length then { x with mail, seen := 0 }
    else { x with seen := x.seen + 1 }

/-- The client has read so many bytes. -/
def passed : (count : Nat) → FarSide → FarSide
  | 0, x => x
  | count + 1, x => (x.passed count).pass

/-- If the next byte completes a frame that answers no call, this concerns no
call that waits in the table either. -/
def Unrelated (x : FarSide) (calls : CallTable) : Prop :=
  ∀ frame payload mail, x.mail = .other frame payload :: mail →
    x.seen + 1 = (Framing.framed payload).length →
    ∀ id, frame.concerns? = some id → calls.isPending id = false

end FarSide

/-! ## Both sides -/

/-- Whether an event moves bytes on the stream. -/
def Connection.Event.movesBytes : Connection.Event → Bool
  | .wrote _ | .arrived _ => true
  | _ => false

/-- No frame that a connection has still to send is too long to be read. -/
def Connection.FramesFit (c : Connection) : Prop :=
  ∀ frame ∈ .initRequest c.announcement :: c.calls.queue.getD [],
    (Binary.Format.frame.write frame).length ≤ Framing.maxLength

/-- A client, and the other side of one connection. -/
structure Conversation where
  client : Client
  far : FarSide := {}

namespace Conversation

/-- What may happen next, where `g` says what the other side answers and `k` is
the connection. No frame is too long, and no call runs out of time. -/
inductive Step (g : Answerer) (k : ConnectionId) (s : Conversation) : Conversation → Prop
  /-- Something happens to the client. -/
  | client (e : Client.Event) (still : ∀ event, e = .stream k event → event.movesBytes = false)
      (inTime : e = .expire → ∀ near, s.client.connections[k]? = some near →
        ∀ timer ∈ near.calls.timers, s.client.now < timer.due)
      (fits : ∀ near, s.client.connections[k]? = some near → near.FramesFit) :
    Step g k s { s with client := s.client.handle e }
  /-- The stream takes some of the bytes that the connection offers. -/
  | write (near : Connection) (h : s.client.connections[k]? = some near) (count : Nat) :
    Step g k s
      { client := s.client.handle (.stream k (.wrote count))
        far := { s.far with up := s.far.up ++ near.offer.take count } }
  | hear : Step g k s { s with far := s.far.hear }
  /-- The other side answers a call that it has heard and not answered. The
  headers may be written in any order. -/
  | answer (place : Nat) (call : Call) (payload : Bytes)
      (heard : s.far.heard[place]? = some call) (fresh : place ∉ s.far.answered)
      (form : Binary.FrameForm .anyOrder (.callResponse (call.reply (g call))) payload)
      (fits : payload.length ≤ Framing.maxLength) :
    Step g k s
      { s with
          far := { s.far with
            answered := s.far.answered ++ [place]
            mail := s.far.mail ++ [.answer place payload] } }
  /-- The other side sends any other frame. -/
  | say (frame : Frame) (payload : Bytes) (form : Binary.FrameForm .anyOrder frame payload)
      (fits : payload.length ≤ Framing.maxLength) :
    Step g k s
      { s with
          far := { s.far with mail := s.far.mail ++ [.other frame payload] } }
  /-- The connection reads some of the bytes that are on their way to it, all at
  once. A frame that answers no call concerns none that waits when it is its
  turn. -/
  | read (near : Connection) (h : s.client.connections[k]? = some near)
      (reading : near.isReading = true) (count : Nat) (enough : count ≤ s.far.down.length)
      (unrelated : ∀ n < count,
        (s.far.passed n).Unrelated (near.arrived (s.far.down.take n)).1.calls) :
    Step g k s
      { client := s.client.handle (.stream k (.arrived (s.far.down.take count)))
        far := s.far.passed count }

/-- A client for which nothing has happened, and the other side of what will be
one of its connections. -/
def start (settings : Settings) (codecs : Codecs) : Conversation where
  client := .start settings codecs

/-- The states that a conversation can come to. -/
inductive Reachable (g : Answerer) (k : ConnectionId) (settings : Settings) (codecs : Codecs) :
    Conversation → Prop where
  | start : Reachable g k settings codecs (start settings codecs)
  | step {s s' : Conversation} :
    Reachable g k settings codecs s → Step g k s s' → Reachable g k settings codecs s'

/-- The connection, if there is one already, has not failed. -/
def LinkUp (k : ConnectionId) (s : Conversation) : Prop :=
  ∀ near, s.client.connections[k]? = some near → near.handshake ≠ .failed

end Conversation

end RpcClient
