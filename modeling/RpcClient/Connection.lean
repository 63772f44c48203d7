/-
One connection to another side. After dialling it announces itself, waits for
the other side to do the same, and from then on sends the calls of its table
and takes what comes for them. It is a machine that others drive: it offers
bytes to write (`offer`) and is told how many went out, it is given the bytes
that come in, and it is told how dialling ended, that the stream has ended,
or that it is to stop.

Its handshake state goes from pending to identified or failed, and from
identified to failed. Whatever makes it fail closes its table of calls too.
-/
import RpcClient.Call.Table
import RpcClient.Stream.Framing

namespace RpcClient

/-- How far the handshake has come. -/
inductive Handshake where
  | pending | identified | failed
deriving DecidableEq

def Handshake.name : Handshake → String
  | .pending => "Pending"
  | .identified => "Identified"
  | .failed => "Failed"

/-- What a connection is busy with. -/
inductive Activity where
  | dialling
  /-- Writing its own announcement. -/
  | greeting (out : FrameWriter)
  /-- Reading the other side's. -/
  | awaiting (inp : FrameReader)
  /-- Reading and writing frames. -/
  | serving (inp : FrameReader) (out : FrameWriter)
  /-- Nothing any more: the stream and the queue are given up. -/
  | stopped
deriving DecidableEq

/-- What all connections of a client have in common. -/
structure ConnectionSettings where
  /-- Where the client can be reached, as it announces it. -/
  hostPort : String
  processName : String
  /-- How long calls wait that do not say. -/
  requestTimeout : Duration

/-- What a client says first on a connection. -/
def ConnectionSettings.identity (s : ConnectionSettings) : Identity where
  hostPort := s.hostPort
  processName := s.processName

/-- A connection. -/
structure Connection where
  remote : Address
  direction : Direction := .outbound
  /-- What it says first. -/
  announcement : Identity
  handshake : Handshake := .pending
  activity : Activity := .dialling
  /-- The first thing that broke the connection. -/
  lastError : Option Error := none
  /-- Who the other side says it is. -/
  identity : Option Identity := none
  calls : CallTable
  /-- It has been given up by its owner. -/
  cleaned : Bool := false
  /-- It has been told to stop, and has not looked yet. -/
  stopping : Bool := false

namespace Connection

/-- The bytes of a frame on a stream. -/
def frameBytes (frame : Frame) : Bytes := Framing.framed (Binary.Format.frame.write frame)

/-- A connection that begins to dial. -/
def dial (remote : Address) (settings : ConnectionSettings) : Connection where
  remote := remote
  announcement := settings.identity
  calls := { usualTimeout := settings.requestTimeout }

/-! ## What a connection shows -/

def isIdentified (c : Connection) : Bool := c.handshake = .identified

/-- Whether requests may still be sent on it. -/
def isUsable (c : Connection) : Bool := !c.cleaned && c.handshake != .failed

/-- Whether it still drives its stream. -/
def isRunning (c : Connection) : Bool := c.activity != .stopped

def pendingCount (c : Connection) : Nat := c.calls.pendingCount

def description (c : Connection) : String :=
  Text.record "Connection"
    [("remote", c.remote.text), ("direction", c.direction.name), ("state", c.handshake.name),
      ("pending", toString c.pendingCount)]

/-! ## Ends -/

/-- Gives up the stream and the queue, and fails the calls that wait. -/
def stop (c : Connection) (cause : Error) : Connection :=
  { c with
      handshake := .failed
      activity := .stopped
      stopping := false
      calls := (c.calls.dropQueue.failAll cause).1 }

/-- Breaks, for a reason. The first reason is kept. -/
def fail (c : Connection) (error : Error) : Connection :=
  { c.stop error with lastError := some (c.lastError.getD error) }

/-- Its owner gives it up: nothing is sent on it any more, the calls that wait
fail, and it is told to stop. Doing so twice is doing so once. -/
def clean (c : Connection) : Connection :=
  if c.cleaned then c
  else
    { c with
        cleaned := true
        handshake := .failed
        stopping := c.isRunning
        calls := (c.calls.failAll (c.lastError.getD .linkClosed)).1 }

/-- It looks whether it has been told to stop. -/
def noticeStop (c : Connection) : Connection := if c.stopping then c.stop .linkClosed else c

/-! ## The stream -/

/-- Dialling has succeeded. -/
def dialled (c : Connection) : Connection :=
  match c.activity with
  | .dialling => { c with activity := .greeting ⟨frameBytes (.initRequest c.announcement)⟩ }
  | _ => c

/-- Dialling has failed. -/
def dialFailed (c : Connection) (error : LinkError) : Connection :=
  match c.activity with
  | .dialling => c.fail (.link error)
  | _ => c

/-- Takes the next call from the queue when nothing is being written. -/
def load (c : Connection) : Connection :=
  match c.activity with
  | .serving inp out =>
    if out.isDone then
      match c.calls.nextFrame? with
      | some (frame, calls) => { c with calls, activity := .serving inp ⟨frameBytes frame⟩ }
      | none => c
    else c
  | _ => c

/-- The bytes to be written next. -/
def offer (c : Connection) : Bytes :=
  match c.activity with
  | .greeting out => out.rest
  | .serving _ out => out.rest
  | _ => []

/-- The stream has taken the first `n` bytes of the offer. -/
def wrote (c : Connection) (n : Nat) : Connection :=
  match c.activity with
  | .greeting out =>
    let rest := out.rest.drop n
    { c with activity := if rest.isEmpty then .awaiting .start else .greeting ⟨rest⟩ }
  | .serving inp out => { c with activity := .serving inp ⟨out.rest.drop n⟩ }
  | _ => c

/-- Whether it reads now. -/
def isReading (c : Connection) : Bool :=
  match c.activity with
  | .awaiting _ | .serving _ _ => true
  | _ => false

/-- Writing or reading has failed, or the stream has ended. -/
def broken (c : Connection) (error : LinkError) : Connection :=
  match c.activity with
  | .dialling | .stopped => c
  | _ => c.fail (.link error)

/-! ## Frames that come in -/

/-- The first frame must be the other side's announcement, in the same version
of the protocol. -/
def identify (c : Connection) (frame : Frame) : Connection :=
  match frame with
  | .initResponse identity =>
    if identity.version = protocolVersion then
      { c with
          identity := some identity
          handshake := if c.handshake = .pending then .identified else c.handshake
          activity := .serving .start {} }
    else c.fail (.handshake (.wrongVersion identity.version))
  | .error report => c.fail (.handshake (.refused report.message))
  | frame => c.fail (.handshake (.unexpected frame))

/-- A later frame goes to the call that it names. A failure that is fatal to
the protocol breaks the connection; frames of other kinds are passed over. -/
def route (c : Connection) (frame : Frame) : Connection :=
  match frame with
  | .callResponse reply => { c with calls := (c.calls.handleReply reply).1 }
  | .error report =>
    if report.kind = .fatalProtocolError then c.fail (.remote report.kind report.message)
    else { c with calls := (c.calls.handleFailure report).1 }
  | _ => c

/-- A whole payload has come in. -/
def receive (c : Connection) (payload : Bytes) : Connection :=
  match Codec.binary.decode .frame payload with
  | .error fault => c.broken (.codec fault)
  | .ok frame =>
    match c.activity with
    | .awaiting _ => c.identify frame
    | .serving _ _ => c.route frame
    | _ => c

/-- Puts the reader back that has read on. -/
def withReader (c : Connection) (inp : FrameReader) : Connection :=
  match c.activity with
  | .awaiting _ => { c with activity := .awaiting inp }
  | .serving _ out => { c with activity := .serving inp out }
  | _ => c

/-- The reader that has read part of a frame. -/
def reader? (c : Connection) : Option FrameReader :=
  match c.activity with
  | .awaiting inp | .serving inp _ => some inp
  | _ => none

/-- Bytes have come in. The answer has those that were not read, because the
connection has stopped. -/
def arrived (c : Connection) (bytes : Bytes) : Connection × Bytes :=
  match c.reader? with
  | none => (c, bytes)
  | some inp =>
    match h : inp.read bytes with
    | (inp, none, rest) => (c.withReader inp, rest)
    | (inp, some (.ok payload), rest) =>
      have : rest.length < bytes.length := FrameReader.read_rest_length h
      arrived ((c.withReader inp).receive payload) rest
    | (_, some (.error fault), rest) => (c.broken (.invalidFrame fault), rest)
termination_by bytes.length

/-! ## On a link of pipes -/

/-- Writes its announcement, or calls while there are any and space for them;
at most `tries` frames. -/
def flush : (tries : Nat) → Connection → Pipe → Connection × Pipe
  | 0, c, p => (c, p)
  | tries + 1, c, p =>
    let c := c.load
    if c.offer.isEmpty then (c, p)
    else
      let space := p.space
      match p.write c.offer with
      | .error fault => (c.broken (.io fault), p)
      | .ok (p, rest) =>
        if rest.isEmpty then flush tries (c.wrote c.offer.length) p else (c.wrote space, p)

/-- Reads all that the pipe holds, and its end. -/
def drain (c : Connection) (p : Pipe) : Connection × Pipe :=
  if c.isReading then
    let (c, rest) := c.arrived p.buffer
    (if c.isReading && p.closed then c.broken .closed else c, { p with buffer := rest })
  else (c, p)

/-- How many frames there are to write at most. -/
def backlog (c : Connection) : Nat := (c.calls.queue.getD []).length + 2

/-- Does all that it can do on its link, and hangs up if it stops. What has
come in goes before what is to go out. -/
def poll (c : Connection) (l : Link) : Connection × Link :=
  let (c, up) := if c.isReading then (c, l.up) else c.flush c.backlog l.up
  let (c, down) := c.drain l.down
  let (c, up) := c.flush c.backlog up
  let c := c.noticeStop
  (c, if c.isRunning then { up, down } else Link.hangUp { up, down })

/-- Whether there is anything that it can do on its link. -/
def canMove (c : Connection) (l : Link) : Bool :=
  c.stopping || (!c.load.offer.isEmpty && l.up.writable) || (c.isReading && l.down.readable)

end Connection

end RpcClient
