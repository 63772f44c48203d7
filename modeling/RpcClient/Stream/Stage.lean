/-
Framed reading and writing with time limits. A stage has a pipe to read from,
which a feeder fills by a plan, and a pipe to write to, which a taker empties
by a plan. One operation at a time is carried out on it. A limit spans the
whole operation; when it has passed, the operation is dropped where it stands,
with what it has read or written so far.
-/
import RpcClient.Clock
import RpcClient.Stream.Framing

namespace RpcClient

/-- What a feeder does. -/
inductive Feed where
  | bytes (bytes : Bytes)
  | wait (span : Duration)
  /-- It waits, and knows until when. -/
  | resume (time : Nat)
  /-- It ends the stream. -/
  | finish

/-- What a taker does. -/
inductive Take where
  /-- It takes so many bytes, waiting for them. -/
  | bytes (count : Nat)
  | wait (span : Duration)
  /-- It waits, and knows until when. -/
  | resume (time : Nat)
  /-- It goes away. -/
  | leave

/-- How long an operation may take, and until when that is. -/
structure Limit where
  span : Duration
  deadline : Nat
deriving DecidableEq

/-- What is done on a stage. -/
inductive Operation where
  | idle
  | read (reader : FrameReader) (limit : Option Limit)
  | write (writer : FrameWriter) (limit : Option Limit)
  /-- Collects what comes out at the far end, until nothing has come for some
  time. -/
  | collect (seen : Bytes) (quiet : Nat)
  | readDone (result : Except LinkError Bytes)
  | writeDone (result : Except LinkError Unit)
  | collected (bytes : Bytes)

/-- Two pipes, and what goes on at them. -/
structure Stage where
  inbound : Pipe
  plan : List Feed := []
  outbound : Pipe
  takes : List Take := []
  operation : Operation := .idle

/-- How many bytes a feed brings. -/
def Feed.size : Feed → Nat
  | .bytes b => b.length
  | _ => 0

/-- How many bytes an operation has still to write. -/
def Operation.size : Operation → Nat
  | .write w _ => w.rest.length
  | _ => 0

namespace Stage

/-! ## The feeder -/

/-- Carries out a plan as far as it goes at an instant. -/
def feed (now : Nat) : List Feed → Pipe → Pipe × List Feed
  | [], p => (p, [])
  | .bytes bytes :: plan, p =>
    match p.write bytes with
    | .error _ => feed now plan p
    | .ok (p, []) => feed now plan p
    | .ok (p, rest) => (p, .bytes rest :: plan)
  | .wait span :: plan, p =>
    if span.after now ≤ now then feed now plan p else (p, .resume (span.after now) :: plan)
  | .resume time :: plan, p => if time ≤ now then feed now plan p else (p, .resume time :: plan)
  | .finish :: plan, p => feed now plan p.close

/-- When the feeder goes on, if it waits. -/
def feedDue? : List Feed → Option Nat
  | .resume time :: _ => some time
  | _ => none

/-! ## The taker -/

/-- Takes by a plan as far as it goes at an instant. -/
def take (now : Nat) : List Take → Pipe → Pipe × List Take
  | [], p => (p, [])
  | .bytes count :: plan, p =>
    let rest := { p with buffer := p.buffer.drop count }
    if count ≤ p.buffer.length then take now plan rest
    else (rest, .bytes (count - p.buffer.length) :: plan)
  | .wait span :: plan, p =>
    if span.after now ≤ now then take now plan p else (p, .resume (span.after now) :: plan)
  | .resume time :: plan, p => if time ≤ now then take now plan p else (p, .resume time :: plan)
  | .leave :: plan, p => take now plan p.close

/-- When the taker goes on, if it waits. -/
def takeDue? : List Take → Option Nat
  | .resume time :: _ => some time
  | _ => none

/-! ## The operation -/

/-- Goes on with the operation, and says whether any byte was moved. -/
def advance (now : Nat) (s : Stage) : Stage × Bool :=
  match s.operation with
  | .read reader limit =>
    let (reader, inbound, result) := reader.poll s.inbound
    let moved := inbound.buffer.length != s.inbound.buffer.length
    ({ s with
        inbound
        operation := match result with
          | some result => .readDone result
          | none => .read reader limit },
      moved)
  | .write writer limit =>
    let (writer, outbound, result) := writer.poll s.outbound
    let moved := outbound.buffer.length != s.outbound.buffer.length
    ({ s with
        outbound
        operation := match result with
          | some result => .writeDone result
          | none => .write writer limit },
      moved)
  | .collect seen quiet =>
    if s.outbound.buffer.isEmpty then
      ({ s with
          operation := if s.outbound.closed || quiet ≤ now then .collected seen
            else .collect seen quiet },
        false)
    else
      ({ s with
          outbound := { s.outbound with buffer := [] }
          operation := .collect (seen ++ s.outbound.buffer) (now + 1) },
        true)
  | _ => (s, false)

/-- Drops the operation if its time has passed. -/
def cut (now : Nat) (s : Stage) : Stage :=
  match s.operation with
  | .read _ (some limit) =>
    if limit.deadline ≤ now then
      { s with operation := .readDone (.error (.timeout .receive limit.span)) }
    else s
  | .write _ (some limit) =>
    if limit.deadline ≤ now then
      { s with operation := .writeDone (.error (.timeout .send limit.span)) }
    else s
  | _ => s

/-- Feeds, takes and goes on by turns, as long as bytes move, but at most so
often. -/
def turns (now : Nat) : (most : Nat) → Stage → Stage
  | 0, s => s
  | most + 1, s =>
    let (inbound, plan) := feed now s.plan s.inbound
    let (outbound, takes) := take now s.takes s.outbound
    let (s, moved) := { s with inbound, plan, outbound, takes }.advance now
    if moved then turns now most s else s

/-- How many bytes there are to move at most, and some more. -/
def load (s : Stage) : Nat :=
  s.inbound.buffer.length + s.outbound.buffer.length + 3 + s.operation.size +
    (s.plan.map Feed.size).foldl (· + ·) 0

/-- All that happens at an instant. -/
def settle (now : Nat) (s : Stage) : Stage := (s.turns now s.load).cut now

/-- When something will happen by itself. -/
def next? (s : Stage) : Option Nat :=
  let due := match s.operation with
    | .read _ limit | .write _ limit => limit.map Limit.deadline
    | .collect _ quiet => some quiet
    | _ => none
  ((feedDue? s.plan).toList ++ (takeDue? s.takes).toList ++ due.toList).min?

/-- How a stage changes as time passes. -/
def clockwork : Clockwork Stage := ⟨next?, settle⟩

/-! ## Operations -/

/-- A limit that counts from an instant. -/
def limitFrom (now : Nat) (span : Option Duration) : Option Limit :=
  span.map fun span => { span, deadline := span.after now }

/-- Begins to read a frame. -/
def beginRead (now : Nat) (span : Option Duration) (s : Stage) : Stage :=
  { s with operation := .read .start (limitFrom now span) }

/-- Begins to write a frame. -/
def beginWrite (now : Nat) (span : Option Duration) (payload : Bytes) (s : Stage) : Stage :=
  { s with operation := .write (.ofPayload payload) (limitFrom now span) }

/-- Begins to collect what has been written, until nothing has come for a
millisecond. -/
def beginCollect (now : Nat) (s : Stage) : Stage :=
  { s with operation := .collect [] (now + 1) }

/-- What a read has come to. -/
def readResult? (s : Stage) : Option (Except LinkError Bytes) :=
  match s.operation with
  | .readDone result => some result
  | _ => none

/-- What a write has come to. -/
def writeResult? (s : Stage) : Option (Except LinkError Unit) :=
  match s.operation with
  | .writeDone result => some result
  | _ => none

/-- What was collected. -/
def collected? (s : Stage) : Option Bytes :=
  match s.operation with
  | .collected bytes => some bytes
  | _ => none

/-- Tries an operation that has just begun, once, before anybody else moves. One
without time to wait is dropped if it is not done then. -/
def attempt (now : Nat) (s : Stage) : Stage := ((s.advance now).1.cut now).settle now

/-- Reads a frame, waiting no longer than to the instant `patience`. -/
def read (now : Nat) (span : Option Duration) (patience : Nat) (s : Stage) :
    Option (Except LinkError Bytes) × Nat × Stage :=
  clockwork.await readResult? patience now ((s.beginRead now span).attempt now)

/-- Writes a frame, waiting no longer than to the instant `patience`. -/
def write (now : Nat) (span : Option Duration) (payload : Bytes) (patience : Nat) (s : Stage) :
    Option (Except LinkError Unit) × Nat × Stage :=
  clockwork.await writeResult? patience now ((s.beginWrite now span payload).attempt now)

end Stage

end RpcClient
