/-
A link in memory with its two ends. An end is whole or split into a sending
and a receiving half; the stream is given up when the end has gone, or both of
its halves.
-/
import RpcClient.Stream.Framing

namespace RpcClient

/-- The two ends of a link. -/
inductive Side where
  | first | second
deriving DecidableEq

def Side.other : Side → Side
  | .first => .second
  | .second => .first

/-- What there is of an end. -/
inductive Shape where
  | whole
  | split (sender receiver : Bool)
  | gone
deriving DecidableEq

/-- A link, and what there is of its ends. -/
structure Duplex where
  link : Link := {}
  first : Shape := .whole
  second : Shape := .whole
deriving DecidableEq

namespace Duplex

def shape (d : Duplex) : Side → Shape
  | .first => d.first
  | .second => d.second

def setShape (d : Duplex) (side : Side) (shape : Shape) : Duplex :=
  match side with
  | .first => { d with first := shape }
  | .second => { d with second := shape }

/-- The pipe that an end writes to. -/
def outgoing (d : Duplex) : Side → Pipe
  | .first => d.link.up
  | .second => d.link.down

/-- The pipe that an end reads from. -/
def incoming (d : Duplex) : Side → Pipe
  | .first => d.link.down
  | .second => d.link.up

def setOutgoing (d : Duplex) (side : Side) (p : Pipe) : Duplex :=
  match side with
  | .first => { d with link := { d.link with up := p } }
  | .second => { d with link := { d.link with down := p } }

def setIncoming (d : Duplex) (side : Side) (p : Pipe) : Duplex :=
  match side with
  | .first => { d with link := { d.link with down := p } }
  | .second => { d with link := { d.link with up := p } }

def canSend (d : Duplex) (side : Side) : Bool :=
  match d.shape side with
  | .whole | .split true _ => true
  | _ => false

def canReceive (d : Duplex) (side : Side) : Bool :=
  match d.shape side with
  | .whole | .split _ true => true
  | _ => false

/-- Writes on: what is left of a frame, and whether it is done. -/
def send (d : Duplex) (side : Side) (w : FrameWriter) :
    Duplex × FrameWriter × Option (Except LinkError Unit) :=
  let (w, p, result) := w.poll (d.outgoing side)
  (d.setOutgoing side p, w, result)

/-- Reads on: what there is of a frame, and whether it is complete. -/
def receive (d : Duplex) (side : Side) (r : FrameReader) :
    Duplex × FrameReader × Option (Except LinkError Bytes) :=
  let (r, p, result) := r.poll (d.incoming side)
  (d.setIncoming side p, r, result)

/-- An end says that it sends nothing more. -/
def finish (d : Duplex) (side : Side) : Duplex := d.setOutgoing side (d.outgoing side).close

/-- Splits an end into its halves; once is enough. -/
def split (d : Duplex) (side : Side) : Duplex :=
  match d.shape side with
  | .whole => d.setShape side (.split true true)
  | _ => d

/-- An end goes away, and the stream with it. -/
def drop (d : Duplex) (side : Side) : Duplex :=
  { d.setShape side .gone with link := d.link.hangUp }

/-- Sets which halves of a split end there are. The stream goes away with the
last of them. -/
def keepHalves (d : Duplex) (side : Side) (sender receiver : Bool) : Duplex :=
  let d := d.setShape side (.split sender receiver)
  if sender || receiver then d else { d with link := d.link.hangUp }

end Duplex

end RpcClient
