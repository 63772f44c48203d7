/-
Scripted servers: what a scenario puts at the other end of a client's links. A
server takes what happens to it in order (frames that came in, actions that
were pushed to it, the end of the stream), and finishes the actions for one
before it looks at the next. What its script says depends on the frame only:
the first one is for the handshake, a later call has the actions of its
endpoint, and every other frame is passed over.
-/
import RpcClient.Connection
import RpcClient.Scenario.Answer

namespace RpcClient.Scenario

/-- Something that a server does. -/
inductive ServerAction where
  /-- Announces itself. -/
  | identify (identity : Identity)
  /-- Answers the call with what it carries. Outside a call it does nothing. -/
  | echo
  /-- Answers the call, or the one with a number. -/
  | reply (id : Option UInt32) (reply : Reply)
  /-- Reports that the call has failed, or the one with a number. -/
  | fail (id : Option UInt32) (report : FailureReport)
  | frame (frame : Frame)
  /-- Sends a payload, whatever is in it. -/
  | payload (bytes : Bytes)
  | wait (span : Duration)
  | hangUp
  /-- Does nothing more, ever. -/
  | hang

/-- How dialling a server ends. -/
inductive DialEnd where
  | accepted
  | refused (error : LinkError)
  /-- It does not end. -/
  | never

/-- What a server does. -/
structure ServerScript where
  /-- How long dialling takes, and how it ends. -/
  dialTime : Duration := ⟨0⟩
  dialEnd : DialEnd := .accepted
  handshake : List ServerAction
  onCall : List ServerAction := [.echo]
  byEndpoint : List (String × List ServerAction) := []

/-- Something that happens to a server. -/
inductive ServerEvent where
  | came (frame : Frame)
  | pushed (actions : List ServerAction)
  | ended

/-- What a server is at. -/
inductive ServerActivity where
  | free
  | waiting (time : Nat)
  | hanging
  | stopped
deriving DecidableEq

/-- A server at the far end of one link. -/
structure Server where
  address : Address
  script : ServerScript
  reader : FrameReader := .start
  /-- It has seen the end of what comes in. -/
  deaf : Bool := false
  events : List ServerEvent := []
  /-- The first frame has come. -/
  greeted : Bool := false
  /-- The call that it is answering. -/
  call : Option Call := none
  actions : List ServerAction := []
  out : FrameWriter := {}
  activity : ServerActivity := .free

namespace Server

def isRunning (s : Server) : Bool := s.activity != .stopped

/-! ## Reading -/

/-- A payload has come in. What is no frame ends the stream. -/
def received (s : Server) (payload : Bytes) : Server :=
  match Codec.binary.decode .frame payload with
  | .ok frame => { s with events := s.events ++ [.came frame] }
  | .error _ => { s with events := s.events ++ [.ended], deaf := true }

/-- Reads all of some bytes. -/
def arrived (s : Server) (bytes : Bytes) : Server :=
  match h : s.reader.read bytes with
  | (reader, none, _) => { s with reader }
  | (reader, some (.ok payload), rest) =>
    have : rest.length < bytes.length := FrameReader.read_rest_length h
    ({ s with reader }.received payload).arrived rest
  | (_, some (.error _), _) => { s with events := s.events ++ [.ended], deaf := true }
termination_by bytes.length

/-- Reads all that the link holds for it, and its end. -/
def listen (s : Server) (l : Link) : Server × Link :=
  let s := s.arrived l.up.buffer
  let s := if l.up.closed && !s.deaf then { s with events := s.events ++ [.ended], deaf := true } else s
  (s, { l with up := { l.up with buffer := [] } })

/-! ## Acting -/

/-- Sends a frame next. -/
def say (s : Server) (frame : Frame) : Server :=
  { s with out := ⟨Connection.frameBytes frame⟩ }

/-- The number of the call that it is answering, or none of a call's. -/
def callId (s : Server) (given : Option UInt32) : UInt32 :=
  given.getD ((s.call.map (·.id)).getD 0)

/-- The reply that carries back what a call brought, and where it was served. -/
def echoOf (s : Server) (call : Call) : Reply where
  id := call.id
  code := .ok
  headers := call.headers
  transportHeaders := call.transportHeaders.insert "served-by" s.address.text
  body := call.body

/-- The server goes away, and the link with it. -/
def leave (s : Server) (l : Link) : Server × Link :=
  ({ s with activity := .stopped, events := [], actions := [], out := {} }, l.hangUp)

/-- Begins an action. -/
def act (now : Nat) (action : ServerAction) (s : Server) (l : Link) : Server × Link :=
  match action with
  | .identify identity => (s.say (.initResponse identity), l)
  | .echo => ((s.call.map fun call => s.say (.callResponse (s.echoOf call))).getD s, l)
  | .reply id reply => (s.say (.callResponse { reply with id := s.callId id }), l)
  | .fail id report => (s.say (.error { report with id := s.callId id }), l)
  | .frame frame => (s.say frame, l)
  | .payload bytes => ({ s with out := .ofPayload bytes }, l)
  | .wait span => ({ s with activity := .waiting (span.after now) }, l)
  | .hangUp => s.leave l
  | .hang => ({ s with activity := .hanging }, l)

/-- Takes up what has happened to it. The answer has what it notes of that. -/
def take (event : ServerEvent) (s : Server) (l : Link) : Server × Link × Option LogEntry :=
  match event with
  | .came frame =>
    let (call, actions) :=
      if !s.greeted then (none, s.script.handshake)
      else
        match frame with
        | .callRequest call =>
          (some call, (s.script.byEndpoint.lookup call.endpoint).getD s.script.onCall)
        | _ => (none, [])
    ({ s with greeted := true, call, actions }, l, some (.frame frame))
  | .pushed actions => ({ s with call := none, actions }, l, none)
  | .ended =>
    let (s, l) := s.leave l
    (s, l, some .closed)

/-- Does one thing more, if there is anything to do at this instant: goes on
writing, begins the next action, or takes up what happened next. -/
def step (now : Nat) (s : Server) (l : Link) : Option (Server × Link × Option LogEntry) :=
  if !s.out.isDone then
    if l.down.writable then
      match s.out.poll l.down with
      | (_, _, some (.error _)) =>
        let (s, l) := s.leave l
        some (s, l, none)
      | (out, down, _) => some ({ s with out }, { l with down }, none)
    else none
  else
    match s.activity with
    | .stopped | .hanging => none
    | .waiting time => if time ≤ now then some ({ s with activity := .free }, l, none) else none
    | .free =>
      match s.actions with
      | action :: actions =>
        let (s, l) := { s with actions }.act now action l
        some (s, l, none)
      | [] =>
        match s.events with
        | [] => none
        | event :: events => some ({ s with events }.take event l)

/-- Does one thing after the other until it has to wait for something, but at
most `most` things. The notes come with the last one first. -/
def work (now : Nat) : (most : Nat) → Server → Link → List LogEntry →
    Server × Link × List LogEntry
  | 0, s, l, notes => (s, l, notes)
  | most + 1, s, l, notes =>
    match s.step now l with
    | none => (s, l, notes)
    | some (s, l, note) => work now most s l (note.toList ++ notes)

/-- How many actions there may be for an event. -/
def actionsFor (s : Server) : ServerEvent → Nat
  | .came _ =>
    s.script.handshake.length + s.script.onCall.length +
      (s.script.byEndpoint.map (·.2.length)).foldl (· + ·) 0
  | .pushed actions => actions.length
  | .ended => 0

/-- How many things it does at most before it has to wait: it takes an event up
in one, and an action takes two. -/
def load (s : Server) : Nat :=
  2 * s.actions.length + (s.events.map fun e => 2 * s.actionsFor e + 1).foldl (· + ·) 0 + 2

/-- When it goes on, if it waits. -/
def nextDue? (s : Server) : Option Nat :=
  match s.activity with
  | .waiting time => some time
  | _ => none

end Server

end RpcClient.Scenario
