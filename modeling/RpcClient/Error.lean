/-
All that can go wrong, by its cause, and the words for each cause. A failure
of the link to one other side is a `LinkError`; `Error` is what a caller is
told. `Error.sources` follows the causes inside an error.
-/
import RpcClient.Address
import RpcClient.Body.Codec
import RpcClient.Duration

namespace RpcClient

/-- What the system reports about a socket. -/
inductive SystemFault where
  | brokenPipe
  /-- There is no way to the address. -/
  | networkUnreachable
  /-- The other side has gone and has left bytes unread. -/
  | connectionReset
deriving DecidableEq

namespace SystemFault

/-- The number by which the system knows a fault. -/
def code : SystemFault → Nat
  | brokenPipe => 32
  | networkUnreachable => 101
  | connectionReset => 104

def name : SystemFault → String
  | brokenPipe => "Broken pipe"
  | networkUnreachable => "Network is unreachable"
  | connectionReset => "Connection reset by peer"

def message (fault : SystemFault) : String :=
  fault.name ++ " (os error " ++ toString fault.code ++ ")"

end SystemFault

/-- What an input or output operation on a stream reports. -/
inductive IoFault where
  /-- Nobody is going to read what is written. -/
  | brokenPipe
  | system (fault : SystemFault)
  /-- Anything else, in its own words. -/
  | custom (text : String)
deriving DecidableEq

namespace IoFault

def message : IoFault → String
  | brokenPipe => "broken pipe"
  | system fault => fault.message
  | custom text => text

end IoFault

/-- Why what stands on a stream is no frame. -/
inductive FrameFault where
  /-- The length in front is above the limit. -/
  | tooLong (length : Nat)
  | custom (text : String)
deriving DecidableEq

namespace FrameFault

def message : FrameFault → String
  | tooLong length => "Message too large: " ++ toString length ++ " bytes"
  | custom text => text

end FrameFault

/-- An operation with a time limit. -/
inductive FrameOp where
  | send | receive
deriving DecidableEq

def FrameOp.name : FrameOp → String
  | .send => "Send"
  | .receive => "Receive"

/-- A failure of a link or of what travels on it. -/
inductive LinkError where
  | io (fault : IoFault)
  | codec (fault : CodecFault)
  /-- The other side has ended the stream. -/
  | closed
  | invalidFrame (fault : FrameFault)
  | connectTimeout (address : Address) (limit : Duration)
  | timeout (op : FrameOp) (limit : Duration)
  | code (error : CodeError)
  | custom (text : String)
deriving DecidableEq

namespace LinkError

/-- The words for an error. -/
def message : LinkError → String
  | io fault => "IO error: " ++ fault.message
  | codec fault => "Codec error: " ++ fault.message
  | closed => "Connection closed"
  | invalidFrame fault => "Invalid frame: " ++ fault.message
  | connectTimeout address limit =>
    "Connect to " ++ address.text ++ " timed out after " ++ limit.text
  | timeout op limit => op.name ++ " timeout exceeded after " ++ limit.text
  | code error => "Protocol error: " ++ error.message
  | custom text => text

end LinkError

/-- Why a handshake did not succeed. -/
inductive HandshakeFault where
  /-- The other side says so, in its own words. -/
  | refused (message : String)
  | wrongVersion (version : UInt16)
  /-- Another frame came than the one that belongs there. -/
  | unexpected (frame : Frame)
deriving DecidableEq

namespace HandshakeFault

def message : HandshakeFault → String
  | refused message => message
  | wrongVersion version => "unsupported protocol version " ++ toString version.toNat
  | unexpected frame => "expected init response, got " ++ frame.description

end HandshakeFault

/-- Why a call, or the attempt to make one, has failed. -/
inductive Error where
  | link (error : LinkError)
  | code (error : CodeError)
  | noPeer
  /-- The connection was not identified in time. -/
  | connectionTimeout (limit : Duration)
  /-- The connection broke, for a reason of its own. -/
  | network (cause : Error)
  /-- No answer came in time. -/
  | requestTimeout (id : UInt32) (limit : Duration)
  | handshake (fault : HandshakeFault)
  /-- The other side reports a failure. -/
  | remote (kind : ErrorKind) (message : String)
  | unsupportedScheme (scheme : Scheme)
  /-- The service that a peer belongs to is no longer there. -/
  | serviceGone
deriving DecidableEq

namespace Error

/-- The words for an error. -/
def message : Error → String
  | link error => error.message
  | code error => error.message
  | noPeer => "No peer available"
  | connectionTimeout limit => "Connection not identified within " ++ limit.text
  | network cause => "Network error: " ++ cause.message
  | requestTimeout id limit =>
    "Request " ++ toString id.toNat ++ " timed out after " ++ limit.text
  | handshake fault => "Handshake failed: " ++ fault.message
  | remote kind message => "Remote error (" ++ kind.name ++ "): " ++ message
  | unsupportedScheme scheme => "Unsupported arg scheme: " ++ scheme.tag
  | serviceGone => "Service channel dropped"

/-- The words for the causes inside an error, the nearest first. -/
def sources : Error → List String
  | network cause => cause.message :: sources cause
  | link (.io fault) => [fault.message]
  | link (.code error) => [error.message]
  | _ => []

/-- The link has been closed. -/
abbrev linkClosed : Error := link .closed

end Error

end RpcClient
