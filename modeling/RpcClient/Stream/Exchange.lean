/-
An exchange of frames over a link in memory. At each end one frame at a time is
sent (`Outbox`) and one is received (`Inbox`), each in as many turns as it takes.
A turn moves no more bytes than it is given, so that a frame may be cut anywhere;
the two ends take their turns in any order, and may be split, finish or go away
at any time.
-/
import RpcClient.Stream.Duplex

namespace RpcClient

/-- What goes out at one end. -/
structure Outbox where
  /-- The payload that is being sent, and what of its frame is still to be
  written. -/
  sending : Option (Bytes × FrameWriter) := none
  /-- All payloads that it has begun to send, the first one first. -/
  sent : List Bytes := []
  /-- Those whose frames were written whole, the first one first. -/
  completed : List Bytes := []

namespace Outbox

/-- Begins to send a payload, if none is being sent. -/
def begin (o : Outbox) (payload : Bytes) : Outbox :=
  match o.sending with
  | some _ => o
  | none =>
    { o with sending := some (payload, .ofPayload payload), sent := o.sent ++ [payload] }

/-- Goes on writing. A frame that can no longer be written is given up. -/
def push (o : Outbox) (count : Nat) (p : Pipe) : Outbox × Pipe :=
  match o.sending with
  | none => (o, p)
  | some (payload, writer) =>
    match writer.pollUpTo count p with
    | (writer, p, none) => ({ o with sending := some (payload, writer) }, p)
    | (_, p, some (.ok ())) =>
      ({ o with sending := none, completed := o.completed ++ [payload] }, p)
    | (_, p, some (.error _)) => ({ o with sending := none }, p)

end Outbox

/-- What comes in at one end. -/
structure Inbox where
  reader : FrameReader := .start
  /-- What it was answered that asked for payloads, the first answer first. -/
  results : List (Except LinkError Bytes) := []

namespace Inbox

/-- The payloads that it has got, the first one first. -/
def received (i : Inbox) : List Bytes := i.results.filterMap Except.toOption

/-- Goes on reading. After each answer it begins to read a frame anew. -/
def pull (i : Inbox) (count : Nat) (p : Pipe) : Inbox × Pipe :=
  match i.reader.pollUpTo count p with
  | (reader, p, none) => ({ i with reader }, p)
  | (_, p, some result) => ({ reader := .start, results := i.results ++ [result] }, p)

end Inbox

/-- A link in use. -/
structure Exchange where
  duplex : Duplex := {}
  /-- What goes out at each end. -/
  outbox : Side → Outbox := fun _ => {}
  /-- What comes in at each end. -/
  inbox : Side → Inbox := fun _ => {}

namespace Exchange

def setOutbox (x : Exchange) (side : Side) (o : Outbox) : Exchange :=
  { x with outbox := fun s => if s = side then o else x.outbox s }

def setInbox (x : Exchange) (side : Side) (i : Inbox) : Exchange :=
  { x with inbox := fun s => if s = side then i else x.inbox s }

/-- Something that happens in an exchange. -/
inductive Event where
  | begin (side : Side) (payload : Bytes)
  /-- An end goes on writing, at most so many bytes. -/
  | push (side : Side) (count : Nat)
  /-- An end goes on reading, at most so many bytes. -/
  | pull (side : Side) (count : Nat)
  | finish (side : Side)
  | split (side : Side)
  | drop (side : Side)
  | dropSender (side : Side)
  | dropReceiver (side : Side)

/-- One event more. -/
def handle (x : Exchange) : Event → Exchange
  | .begin side payload =>
    if x.duplex.canSend side then x.setOutbox side ((x.outbox side).begin payload) else x
  | .push side count =>
    if x.duplex.canSend side then
      let (o, p) := (x.outbox side).push count (x.duplex.outgoing side)
      { x with duplex := x.duplex.setOutgoing side p }.setOutbox side o
    else x
  | .pull side count =>
    if x.duplex.canReceive side then
      let (i, p) := (x.inbox side).pull count (x.duplex.incoming side)
      { x with duplex := x.duplex.setIncoming side p }.setInbox side i
    else x
  | .finish side => { x with duplex := x.duplex.finish side }
  | .split side => { x with duplex := x.duplex.split side }
  | .drop side => { x with duplex := x.duplex.drop side }
  | .dropSender side =>
    match x.duplex.shape side with
    | .split _ receiver => { x with duplex := x.duplex.keepHalves side false receiver }
    | _ => x
  | .dropReceiver side =>
    match x.duplex.shape side with
    | .split sender _ => { x with duplex := x.duplex.keepHalves side sender false }
    | _ => x

/-- All events of a run in their order. -/
def run (x : Exchange) (events : List Event) : Exchange := events.foldl handle x

end Exchange

end RpcClient
