/-
What a link runs over, and how one over sockets is made. Sockets hold more
than a pipe in memory, report broken links in the words of the system, and
tell an end when the other has gone with bytes unread.
-/
import RpcClient.Stream.Duplex

namespace RpcClient

/-- What a link runs over. -/
inductive Medium where
  | memory | socket
deriving DecidableEq

namespace Medium

/-- How many bytes are held in one direction. -/
def capacity : Medium → Nat
  | memory => 65536
  | socket => 4 * 1024 * 1024

/-- What writing reports when nobody is going to read. -/
def brokenPipe : Medium → IoFault
  | memory => .brokenPipe
  | socket => .system .brokenPipe

/-- Whether an end is told that the other has gone with bytes unread. -/
def resets : Medium → Bool
  | memory => false
  | socket => true

/-- Whether a sending half ends its direction of the stream when it goes away by
itself. -/
def halfCloses : Medium → Bool
  | memory => false
  | socket => true

end Medium

/-- How long operations on one end may take. -/
structure FrameLimits where
  send : Option Duration := none
  receive : Option Duration := none

/-- What a socket is dialled with. -/
inductive DialTarget where
  | noAddress
  /-- An address where nobody can be reached. -/
  | unreachable
  /-- An address where somebody listens. -/
  | listening
deriving DecidableEq

/-- How dialling a socket ends. -/
def DialTarget.dial : DialTarget → Except LinkError Unit
  | noAddress => .error (.custom "Address not set")
  | unreachable => .error (.io (.system .networkUnreachable))
  | listening => .ok ()

end RpcClient
