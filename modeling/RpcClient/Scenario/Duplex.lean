/-
Scenarios for a link: frames or values are sent and received at both ends,
which may be split, finished and dropped. Nothing happens in between, so a
step that cannot go on at once never does. The link is in memory or, by its
`Medium`, a pair of sockets.
-/
import RpcClient.Scenario.Answer
import RpcClient.Stream.Socket

namespace RpcClient.Scenario.Duplex

/-- One step, at one end. -/
inductive Step where
  | send (payload : Bytes)
  /-- Encodes a body and sends it. -/
  | sendValue (body : Body)
  | receive
  /-- Receives a payload and decodes it. -/
  | receiveValue (kind : Body.Kind)
  | split
  | close
  | drop
  | dropSender
  | dropReceiver

/-- A link, the codecs and limits at its ends, and the clock. -/
structure World where
  duplex : RpcClient.Duplex := {}
  medium : Medium := .memory
  codec : Side → Option Codec
  limits : Side → FrameLimits := fun _ => {}
  /-- The end that has still to be told that the other one has gone with bytes
  unread. -/
  reset : Option Side := none
  now : Nat := 0

/-- The world in which nothing has been done on a pair of sockets. -/
def World.sockets (codec : Option Codec) (limits : FrameLimits) : World where
  duplex := { link := { up := { capacity := Medium.socket.capacity }
                        down := { capacity := Medium.socket.capacity } } }
  medium := .socket
  codec _ := codec
  limits
    | .first => limits
    | .second => {}

/-- What the step needs is not there. -/
def gone : Answer := .word "gone"

/-- The world after a step that waited in vain. -/
def World.giveUp (w : World) (duplex : RpcClient.Duplex) : World × Answer :=
  ({ w with duplex, now := w.now + patience }, .blocked)

/-- What an end is told that finds its link broken; of a reset it is told once. -/
def World.broken (w : World) (side : Side) (otherwise : LinkError) : World × Answer :=
  if w.reset = some side then
    ({ w with reset := none }, .error (.link (.io (.system .connectionReset))))
  else (w, .error (.link otherwise))

/-- Sends a payload. -/
def send (w : World) (side : Side) (payload : Bytes) : World × Answer :=
  match w.duplex.send side (.ofPayload payload) with
  | (duplex, _, some (.ok ())) => ({ w with duplex }, .word "ok")
  | (duplex, _, some (.error _)) =>
    { w with duplex }.broken side (.io w.medium.brokenPipe)
  | (duplex, _, none) =>
    match (w.limits side).send with
    | some span => ({ w with duplex }, .error (.link (.timeout .send span)))
    | none => w.giveUp duplex

/-- Receives a payload. -/
def receive (w : World) (side : Side) (answer : Bytes → Answer) : World × Answer :=
  match w.duplex.receive side .start with
  | (duplex, _, some (.ok payload)) => ({ w with duplex }, answer payload)
  | (duplex, _, some (.error .closed)) => { w with duplex }.broken side .closed
  | (duplex, _, some (.error fault)) => ({ w with duplex }, .error (.link fault))
  | (duplex, _, none) =>
    match (w.limits side).receive with
    | some span => ({ w with duplex }, .error (.link (.timeout .receive span)))
    | none => w.giveUp duplex

/-- An end, or what there was left of it, has gone. On sockets the other end
will find out that bytes were left unread. -/
def World.left (w : World) (side : Side) (duplex : RpcClient.Duplex) : World :=
  let gone := match duplex.shape side with
    | .gone | .split false false => true
    | _ => false
  let unread := gone && w.medium.resets && !(w.duplex.incoming side).buffer.isEmpty
  { w with duplex, reset := if unread then some side.other else w.reset }

/-- Decodes what was received. -/
def decoded (codec : Codec) (kind : Body.Kind) (payload : Bytes) : Answer :=
  .ofResult .value ((codec.decodeBody kind payload).mapError LinkError.codec)

/-- Carries out a step at one end. Where there is a codec, closing uses up the
end, or its sending half. -/
def step (w : World) (side : Side) : Step → World × Answer
  | .send payload => if w.duplex.canSend side then send w side payload else (w, gone)
  | .sendValue body =>
    match w.codec side with
    | none => (w, gone)
    | some codec =>
      if w.duplex.canSend side then
        match codec.encodeBody body with
        | .ok payload => send w side payload
        | .error fault => (w, .error (.link (.codec fault)))
      else (w, gone)
  | .receive => if w.duplex.canReceive side then receive w side .payload else (w, gone)
  | .receiveValue kind =>
    match w.codec side with
    | none => (w, gone)
    | some codec =>
      if w.duplex.canReceive side then receive w side (decoded codec kind) else (w, gone)
  | .split =>
    match w.duplex.shape side with
    | .gone => (w, gone)
    | _ => ({ w with duplex := w.duplex.split side }, .word "ok")
  | .close =>
    let finished := w.duplex.finish side
    let channel := (w.codec side).isSome
    match w.duplex.shape side with
    | .whole =>
      (w.left side (if channel then finished.drop side else finished), .word "ok")
    | .split true receiver =>
      (w.left side (if channel then finished.keepHalves side false receiver else finished),
        .word "ok")
    | _ => (w, gone)
  | .drop =>
    match w.duplex.shape side with
    | .gone => (w, gone)
    | _ => (w.left side (w.duplex.drop side), .nothing)
  | .dropSender =>
    match w.duplex.shape side with
    | .split _ receiver =>
      let duplex := if w.medium.halfCloses then w.duplex.finish side else w.duplex
      (w.left side (duplex.keepHalves side false receiver), .nothing)
    | _ => (w, gone)
  | .dropReceiver =>
    match w.duplex.shape side with
    | .split sender _ => (w.left side (w.duplex.keepHalves side sender false), .nothing)
    | _ => (w, gone)

/-- The answers to all steps. -/
def run (w : World) (steps : List (Side × Step)) : List Timed :=
  runSteps (fun w (side, s) => let (w, answer) := step w side s; (w, { answer, time := w.now }))
    steps w

end RpcClient.Scenario.Duplex
