/-
Scenarios for a whole client whose links lead to scripted servers. A `World`
has the client, what is being dialled, the links, the servers at their far
ends, and the requests in flight under the names of slots.

At one instant everything moves until nothing does (`World.quiesce`); only
then does the request of the step itself look how its connection stands, so
it sees the last of several changes made at one instant. Time passes when
that changes nothing either.
-/
import RpcClient.Scenario.Server

namespace RpcClient.Scenario.Network

/-! ## Steps -/

/-- Which connection a step is about. -/
inductive Which where
  /-- The current one for an address. -/
  | current (address : Address)
  /-- The one that was shown with a number. -/
  | shown (number : Nat)

/-- One step. Services are named; peers are known by their place. -/
inductive Step where
  | service (name : String) (wish : Direction)
  | addPeers (name : String) (addresses : List Address)
  | peers (name : String)
  | choose (name : String) (start : Nat)
  | connect (name : String) (start : Nat)
  | rescore (name : String) (place : Nat)
  | preferred (name : String) (place : Nat)
  | connectPeer (name : String) (place : Nat)
  /-- Sends a request and waits for its outcome. -/
  | call (name : String) (out : Outgoing) (target : Option Address) (start : Nat)
  /-- Sends a request, and leaves what comes of it in a slot. -/
  | send (name : String) (out : Outgoing) (target : Option Address) (start : Nat) (slot : String)
  /-- Has a request sent in the background, and leaves it in a slot. -/
  | spawn (name : String) (out : Outgoing) (target : Option Address) (start : Nat) (slot : String)
  | findOrOpen (address : Address)
  | look (which : Which)
  | clean (which : Which)
  /-- Waits until the handshake of the current connection is settled. -/
  | waitIdentified (address : Address) (ms : Nat)
  | pool
  | shutdown
  /-- Lets go of the client and its services; the peers stay. -/
  | release
  | register (name endpoint : String) (handler : Handler)
  | handle (name : String) (request : Request Bytes)
  /-- Changes what is met by dialling from now on. -/
  | server (address : Address) (script : ServerScript)
  /-- Gives the newest server at an address something more to do. -/
  | push (address : Address) (actions : List ServerAction)
  | log (address : Address)
  /-- Changes the table that scores come from. -/
  | scores (changes : List (Address × Score))
  | visits
  | sleep (ms : Nat)
  | poll (slot : String)
  | await (slot : String)
  | drop (slot : String)

/-! ## The world -/

/-- A dial that has not ended. -/
structure Dial where
  connection : ConnectionId
  script : ServerScript
  /-- When it ends, if it does. -/
  due : Option Nat

/-- What a slot holds. -/
inductive Slot where
  | dispatch (d : DispatchId)
  /-- A request that could not be sent. -/
  | notSent (error : Error)

/-- A client and what is around it. -/
structure World where
  client : Client
  now : Nat := 0
  /-- The client and its services have been let go. -/
  released : Bool := false
  /-- What is met by dialling. -/
  scripts : List (Address × ServerScript)
  /-- Where has been dialled to, the last one first. -/
  dialled : List Address := []
  /-- How many connections have begun to dial. -/
  begun : Nat := 0
  dials : List Dial := []
  links : List (ConnectionId × Link) := []
  servers : List (ConnectionId × Server) := []
  /-- What servers have noted, the last one first. -/
  logs : List (Address × LogEntry) := []
  /-- The request of the step itself, while it has to be waited for. -/
  foreground : Option DispatchId := none
  /-- Requests that are sent in the background, with their services. -/
  background : List (DispatchId × ServiceId) := []
  slots : List (String × Slot) := []
  /-- The connections that answers have shown, the first one first. -/
  shown : List ConnectionId := []
  /-- The table that scores come from, if they come from one. What is scored by
  it is noted. -/
  scores : Option (List (Address × Score)) := none
  /-- When the step itself has to look again. -/
  alarm : Option Nat := none

namespace World

/-- A world in which nothing has happened. Scores come from a table if there is
one. -/
def start (client : Client) (scripts : List (Address × ServerScript))
    (scores : Option (List (Address × Score))) : World where
  client := { client with scorer := scores.elim client.scorer .ofTable }
  scripts := scripts
  scores := scores

/-! ## What moves -/

/-- Where something has moved, or the world as it was. -/
abbrev Moved := Option World

/-- One thing that may move. -/
abbrev Move := World → Moved

def setLink (w : World) (i : ConnectionId) (l : Link) : World :=
  { w with links := w.links.map fun e => if e.1 = i then (i, l) else e }

def setServer (w : World) (i : ConnectionId) (s : Server) : World :=
  { w with servers := w.servers.map fun e => if e.1 = i then (i, s) else e }

/-- The next connection begins to dial. One that has been told to stop does
not. -/
def beginDial (w : World) : Moved :=
  match w.client.connections[w.begun]? with
  | none => none
  | some c =>
    let i := w.begun
    let w := { w with begun := i + 1 }
    if c.stopping then some w
    else
      let w := { w with dialled := c.remote :: w.dialled }
      match w.scripts.lookup c.remote with
      | none =>
        let refused (c : Connection) := c.dialFailed (.io (.custom "connection refused"))
        some { w with client := w.client.modifyConnection i refused }
      | some script =>
        let due := match script.dialEnd with
          | .never => none
          | _ => some (script.dialTime.after w.now)
        some { w with dials := w.dials ++ [{ connection := i, script, due }] }

/-- A dial ends. One that nobody waits for any more comes to nothing. -/
def endDial (w : World) : Moved := do
  let dial ← w.dials.find? fun d => d.due.any (· ≤ w.now)
  let c ← w.client.connections[dial.connection]?
  let i := dial.connection
  let w := { w with dials := w.dials.filter (·.connection != i) }
  if c.stopping || !c.isRunning then some w
  else
    match dial.script.dialEnd with
    | .accepted =>
      some { w with
        client := w.client.modifyConnection i Connection.dialled
        links := w.links ++ [(i, {})]
        servers := w.servers ++ [(i, { address := c.remote, script := dial.script })] }
    | .refused error => some { w with client := w.client.modifyConnection i (·.dialFailed error) }
    | .never => some w

/-- A connection moves: on its link, or, having none yet, by stopping. -/
def moveConnection (i : ConnectionId) (w : World) : Moved := do
  let c ← w.client.connections[i]?
  if c.isRunning then
    match w.links.lookup i with
    | some l =>
      if c.canMove l then
        let (c, l) := c.poll l
        some ({ w with client := w.client.modifyConnection i fun _ => c }.setLink i l)
      else none
    | none =>
      if c.stopping then
        some { w with client := w.client.modifyConnection i Connection.noticeStop }
      else none
  else none

/-- A server reads, and does all that it can. -/
def moveServer (i : ConnectionId) (w : World) : Moved := do
  let s ← w.servers.lookup i
  let l ← w.links.lookup i
  let hears := !l.up.buffer.isEmpty || (l.up.closed && !s.deaf)
  if s.isRunning && (hears || (s.step w.now l).isSome) then
    let (s, l) := if hears then s.listen l else (s, l)
    let (s, l, notes) := s.work w.now s.load l []
    let w := { w with logs := notes.map (s.address, ·) ++ w.logs }
    some ((w.setServer i s).setLink i l)
  else none

/-- A request looks at its connection; it moves if it need not wait any
longer. -/
def resume (d : DispatchId) (w : World) : Moved :=
  if w.client.isWaiting d then
    let client := w.client.resume d
    if client.isWaiting d then none else some { w with client }
  else none

/-- Timers of calls go off. -/
def expire (w : World) : Moved :=
  if w.client.connections.any fun c => c.calls.nextDue?.any (· ≤ w.now) then
    some { w with client := w.client.expireDue }
  else none

/-- All that may move but the request of the step itself. -/
def moves (w : World) : List Move :=
  [beginDial, endDial, expire] ++ w.servers.map (moveServer ·.1) ++
    (List.range w.client.connections.length).map moveConnection ++ w.background.map (resume ·.1)

/-- Lets everything move once, in turn; the answer is whether anything did. -/
def round (w : World) : World × Bool :=
  w.moves.foldl (fun (w, moved) move =>
    match move w with
    | some w => (w, true)
    | none => (w, moved)) (w, false)

/-- Lets everything move until nothing does, and the request of the step itself
when nothing else does; but at most `most` times. -/
def quiesce : (most : Nat) → World → World
  | 0, w => w
  | most + 1, w =>
    match w.round with
    | (w, true) => quiesce most w
    | (w, false) =>
      match w.foreground.bind fun d => resume d w with
      | some w => quiesce most w
      | none => w

/-- More often than anything moves at one instant. -/
def often : Nat := 1000000000

/-- A service is gone when the client has been let go and no request of it waits
for its connection any more. -/
def releaseServices (w : World) : World :=
  if w.released then
    let busy := (w.background.filter fun e => w.client.isWaiting e.1).map (·.2)
    { w with client := { w.client with
        services := w.client.services.mapIdx fun i s => { s with released := !busy.contains i } } }
  else w

/-- All that happens at an instant. -/
def settle (now : Nat) (w : World) : World :=
  ({ w with now, client := { w.client with now } }.quiesce often).releaseServices

/-- When something will happen by itself. -/
def next? (w : World) : Option Nat :=
  (w.client.nextDue?.toList ++ w.alarm.toList ++ w.dials.filterMap (·.due) ++
    w.servers.filterMap (·.2.nextDue?)).filter (w.now < ·) |>.min?

/-- How a world changes as time passes. -/
def clockwork : Clockwork World := ⟨next?, settle⟩

/-! ## What steps look at -/

/-- The number of a connection in the order in which they were first shown. -/
def numberOf (w : World) (i : ConnectionId) : World × Nat :=
  if w.shown.contains i then (w, w.shown.idxOf i)
  else ({ w with shown := w.shown ++ [i] }, w.shown.length)

/-- The answer that shows a connection. -/
def show? (w : World) (i : Option ConnectionId) : World × Answer :=
  match i, i.bind (w.client.connections[·]?) with
  | some i, some connection =>
    let (w, number) := w.numberOf i
    (w, .connection { number, connection })
  | _, _ => (w, .nothing)

/-- The connection that a step is about. Without a client none is current. -/
def find? (w : World) : Which → Option ConnectionId
  | .current address => if w.released then none else w.client.current? address
  | .shown number => w.shown[number]?

/-- The service with a name. -/
def serviceId? (w : World) (name : String) : Option ServiceId :=
  w.client.services.findIdx? (·.name == name)

/-- What has become of the request in a slot. -/
def slotAnswer? (w : World) : Slot → Option Answer
  | .notSent error => some (.notSent error)
  | .dispatch d => (w.client.outcome? d).map .outcome

/-- The step needs a client, and there is none. -/
def noClient : Answer := .word "no mux"

/-- Answers from a client and its service, if they are still there. -/
def withService (w : World) (name : String) (f : ServiceId → Service → World × Answer) :
    World × Answer :=
  if w.released then (w, noClient)
  else
    match (w.serviceId? name).bind fun i => (w.client.services[i]?).map (i, ·) with
    | some (i, s) => f i s
    | none => (w, .nothing)

/-- Answers from a client, if it is still there. -/
def withClient (w : World) (f : World × Answer) : World × Answer :=
  if w.released then (w, noClient) else f

/-- Waits for something to be seen in the world, no longer than a step may wait
since `start`. -/
def await (w : World) (start : Nat) (look : World → Option Answer) : World × Option Answer :=
  let (answer, _, w) := clockwork.await look (start + patience) w.now (w.settle w.now)
  (w, answer)

/-- Waits for a request to be sent. A step that waits too long lets go of the
request. -/
def awaitSent (w : World) (d : DispatchId) : World × Bool :=
  let start := w.now
  let (w, sent) := { w with foreground := some d }.await start fun w =>
    if w.client.isWaiting d then none else some .nothing
  let w := { w with foreground := none }
  if sent.isSome then (w, true) else ({ w with client := w.client.abandon d }, false)

/-! ## Carrying out steps -/

/-- The answer to a request for a connection. -/
def connected (w : World) (remote : Bool) : Except Error (Client × ConnectionId) → World × Answer
  | .error e => (w, .error e)
  | .ok (client, i) =>
    let (w, number) := { w with client }.numberOf i
    (w, .connected number (if remote then (client.connections[i]?).map (·.remote) else none))

/-- The place of a peer of a service, if it has one there. -/
def withPeer (w : World) (name : String) (place : Nat) (f : ServiceId → World × Answer) :
    World × Answer :=
  match w.serviceId? name with
  | some i =>
    if ((w.client.services[i]?).bind (·.peers[place]?)).isSome then f i else (w, .nothing)
  | none => (w, .nothing)

/-- Carries out a step. -/
def step (w : World) : Step → World × Answer
  | .service name wish =>
    w.withClient <|
      let (client, i) := w.client.service name wish
      match client.services[i]? with
      | some s =>
        ({ w with client }, .service (w.serviceId? name).isSome s.wish s.caller)
      | none => (w, .nothing)
  | .addPeers name addresses =>
    w.withService name fun i _ =>
      let client := w.client.addPeers i addresses
      match client.services[i]? with
      | some s => ({ w with client }, .configured s.peers s.description)
      | none => (w, .nothing)
  | .peers name =>
    (w, .peers (((w.serviceId? name).bind (w.client.services[·]?)).elim [] (·.peers)))
  | .choose name start =>
    w.withService name fun i _ =>
      let (client, chosen) := w.client.choose i start
      let peer? := (client.services[i]?).bind fun s => chosen.bind fun place =>
        (s.peers[place]?).map (place, ·)
      ({ w with client }, peer?.elim .nothing fun (place, peer) => .chosen place peer)
  | .connect name start => w.withService name fun i _ => w.connected true (w.client.connect i start)
  | .rescore name place =>
    w.withPeer name place fun i =>
      let (client, score) := w.client.rescorePeer i place
      ({ w with client }, score.elim .nothing fun s => .score s.settles s.value)
  | .preferred name place =>
    w.withPeer name place fun i =>
      let (client, connection) := w.client.preferred i place
      let w := { w with client }
      match connection with
      | none => (w, .nothing)
      | some i =>
        let (w, number) := w.numberOf i
        (w, .number number)
  | .connectPeer name place =>
    w.withPeer name place fun i => w.connected false (w.client.connectPeer i place)
  | .call name out target start =>
    w.withService name fun i _ =>
      match w.client.dispatch i out target start with
      | .error e => (w, .notSent e)
      | .ok (client, d) =>
        let begun := w.now
        match { w with client }.awaitSent d with
        | (w, false) => (w, .blocked)
        | (w, true) =>
          let (w, answer) := w.await begun fun w => (w.client.outcome? d).map .outcome
          (w, answer.getD .blocked)
  | .send name out target start slot =>
    w.withService name fun i _ =>
      match w.client.dispatch i out target start with
      | .error e => (w, .notSent e)
      | .ok (client, d) =>
        match { w with client }.awaitSent d with
        | (w, false) => (w, .blocked)
        | (w, true) =>
          ({ w with slots := put w.slots slot (.dispatch d) }, .word "ResponseFuture \x7b .. \x7d")
  | .spawn name out target start slot =>
    w.withService name fun i _ =>
      match w.client.dispatch i out target start with
      | .error e => ({ w with slots := put w.slots slot (.notSent e) }, .word "started")
      | .ok (client, d) =>
        ({ w with
            client
            background := w.background ++ [(d, i)]
            slots := put w.slots slot (.dispatch d) },
          .word "started")
  | .findOrOpen address =>
    w.withClient <|
      let (client, i) := w.client.findOrOpen address
      { w with client }.show? (some i)
  | .look which => w.show? (w.find? which)
  | .clean which =>
    match w.find? which with
    | none => (w, .nothing)
    | some i => { w with client := w.client.clean i }.show? (some i)
  | .waitIdentified address ms =>
    match w.find? (.current address) with
    | none => (w, .nothing)
    | some i =>
      let start := w.now
      let look (w : World) : Option Answer :=
        (w.client.connections[i]?).bind fun c =>
          if c.handshake != .pending then some (.flag c.isIdentified)
          else if start + ms ≤ w.now then some (.flag false)
          else none
      match look w with
      | some answer => (w, answer)
      | none =>
        let (w, answer) := { w with alarm := some (start + ms) }.await start look
        ({ w with alarm := none }, answer.getD .blocked)
  | .pool => w.withClient (w, .pool w.client.pool.length)
  | .shutdown => w.withClient ({ w with client := w.client.shutdown }, .nothing)
  | .release => ({ w with released := true }.releaseServices, .nothing)
  | .register name endpoint handler =>
    w.withService name fun i _ =>
      ({ w with client := w.client.modifyService i (·.register endpoint handler) }, .nothing)
  | .handle name request =>
    w.withService name fun _ s =>
      match s.handler? request.endpoint with
      | none => (w, .nothing)
      | some handler =>
        let body (r : Response Bytes) : Response Body := r.withBody (Body.ofBytes r.body)
        (w, .outcome ((handler request).map body))
  | .server address script => ({ w with scripts := put w.scripts address script }, .nothing)
  | .push address actions =>
    match (w.servers.filter (·.2.address = address)).getLast? with
    | some (i, s) =>
      if s.isRunning then
        (w.setServer i { s with events := s.events ++ [.pushed actions] }, .flag true)
      else (w, .flag false)
    | none => (w, .flag false)
  | .log address =>
    let (here, elsewhere) := w.logs.partition (·.1 = address)
    ({ w with logs := elsewhere },
      .log (w.dialled.filter (· = address)).length (here.map (·.2)).reverse)
  | .scores changes =>
    match w.scores with
    | none => (w, .nothing)
    | some scores =>
      let scores := changes ++ scores
      ({ w with scores := some scores, client := { w.client with scorer := .ofTable scores } },
        .nothing)
  | .visits =>
    if w.scores.isSome then
      ({ w with client := { w.client with visits := [] } }, .visits w.client.visits.reverse)
    else (w, .visits [])
  | .sleep ms =>
    ((clockwork.sleep (w.now + min ms patience) w.now w).2,
      if ms ≤ patience then .nothing else .blocked)
  | .poll slot =>
    match w.slots.lookup slot with
    | none => (w, .noSlot)
    | some held =>
      match w.slotAnswer? held with
      | none => (w, .word "pending")
      | some answer => ({ w with slots := remove w.slots slot }, answer)
  | .await slot =>
    match w.slots.lookup slot with
    | none => (w, .noSlot)
    | some held =>
      let (w, answer) := w.await w.now (·.slotAnswer? held)
      ({ w with slots := remove w.slots slot }, answer.getD .blocked)
  | .drop slot =>
    if (w.slots.lookup slot).isNone then (w, .noSlot)
    else ({ w with slots := remove w.slots slot }, .word "dropped")

end World

/-- Carries out a step, and lets happen what happens at once. -/
def stepTimed (w : World) (s : Step) : World × Timed :=
  let (w, answer) := w.step s
  let w := w.settle w.now
  (w, { answer, time := w.now })

/-- The answers to all steps. -/
def run (w : World) (steps : List Step) : List Timed := runSteps stepTimed steps w

end RpcClient.Scenario.Network
