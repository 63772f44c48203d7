/-
What each side of a connection says first. A connection writes its own
announcement (`greeting`) and nothing else before the other side has answered
with its own, in the same version of the protocol (`Introduced`). What happens at
its stream decides how that ends (`Opening`), whatever else is done with it.
-/
import RpcClient.Connection.Event

namespace RpcClient.Connection

/-- What a connection writes first. -/
def greeting (c : Connection) : Bytes := frameBytes (.initRequest c.announcement)

/-- The bytes that the connection reads of those that an event brings. -/
def heard (c : Connection) (e : Event) : Bytes :=
  match e with
  | .arrived bytes => bytes.take (bytes.length - (c.arrived bytes).2.length)
  | _ => []

/-- What was read begins with a frame in which the other side announces itself,
in the same version of the protocol. -/
def Introduced (heard : Bytes) : Prop :=
  ∃ payload identity, Framing.framed payload <+: heard ∧ payload.length ≤ Framing.maxLength ∧
    Codec.binary.decode .frame payload = .ok (.initResponse identity) ∧
    identity.version = protocolVersion

/-! ## How the greeting ends -/

/-- What the first payload that comes in says: who the other side is, or why the
connection is of no use. -/
def introduction (payload : Bytes) : Except Error Identity :=
  match Codec.binary.decode .frame payload with
  | .error fault => .error (.link (.codec fault))
  | .ok (.initResponse identity) =>
    if identity.version = protocolVersion then .ok identity
    else .error (.handshake (.wrongVersion identity.version))
  | .ok (.error report) => .error (.handshake (.refused report.message))
  | .ok frame => .error (.handshake (.unexpected frame))

/-- How far both sides have come with introducing themselves. -/
inductive Opening where
  | dialling
  /-- So much of the greeting has still to be written. -/
  | greeting (rest : Bytes)
  /-- So much has come in, and no whole frame. -/
  | awaiting (heard : Bytes)
  /-- It is known who the other side is, or what went wrong. -/
  | settled (result : Except Error Identity)

namespace Opening

/-- What an event at the stream brings, where `greeting` is to be written. -/
def after (greeting : Bytes) (o : Opening) (e : Event) : Opening :=
  match o, e with
  | .dialling, .dialled => .greeting greeting
  | .dialling, .dialFailed error => .settled (.error (.link error))
  | .greeting rest, .wrote count =>
    if (rest.drop count).isEmpty then .awaiting [] else .greeting (rest.drop count)
  | .greeting _, .writeFailed error => .settled (.error (.link error))
  | .awaiting heard, .arrived bytes =>
    match Framing.first? (heard ++ bytes) with
    | none => .awaiting (heard ++ bytes)
    | some (.error fault) => .settled (.error (.link (.invalidFrame fault)))
    | some (.ok payload) => .settled (introduction payload)
  | .awaiting _, .readFailed error => .settled (.error (.link error))
  | o, _ => o

/-- All events of a run in their order. -/
def run (greeting : Bytes) (o : Opening) (events : List Event) : Opening :=
  events.foldl (after greeting) o

end Opening

end RpcClient.Connection
