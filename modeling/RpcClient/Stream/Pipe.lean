/-
Pipes: bytes put in at one end come out at the other, in order. A pipe holds
no more than its capacity, so writing may have to wait; once it is closed
nothing more goes in, but what is in it can still be read.
-/
import RpcClient.Error

namespace RpcClient

/-- One direction of a stream of bytes. -/
structure Pipe where
  capacity : Nat := 65536
  buffer : Bytes := []
  closed : Bool := false
deriving DecidableEq

namespace Pipe

/-- How many bytes more the pipe can hold. -/
def space (p : Pipe) : Nat := p.capacity - p.buffer.length

/-- Puts in as many bytes as there is space for. The answer has the pipe and
the bytes that are left. -/
def write (p : Pipe) (bytes : Bytes) : Except IoFault (Pipe × Bytes) :=
  if p.closed then .error .brokenPipe
  else
    let (now, later) := bytes.splitAt p.space
    .ok ({ p with buffer := p.buffer ++ now }, later)

/-- Neither end is going to write: the writer has finished, or one of the two
has gone. -/
def close (p : Pipe) : Pipe := { p with closed := true }

/-- Whether there is something to find out by reading: bytes, or the end. -/
def readable (p : Pipe) : Bool := !p.buffer.isEmpty || p.closed

/-- Whether there is something to find out by writing: space, or nobody to
read. -/
def writable (p : Pipe) : Bool := 0 < p.space || p.closed

theorem write_closed {p : Pipe} (closed : p.closed = true) (bytes : Bytes) :
    p.write bytes = .error .brokenPipe := by
  simp [write, closed]

theorem write_open {p : Pipe} (isOpen : p.closed = false) (bytes : Bytes) :
    p.write bytes =
      .ok ({ p with buffer := p.buffer ++ bytes.take p.space }, bytes.drop p.space) := by
  simp [write, isOpen]

end Pipe

/-- Both directions of a stream between two ends. -/
structure Link where
  /-- What the first end writes and the second reads. -/
  up : Pipe := {}
  /-- What the second end writes and the first reads. -/
  down : Pipe := {}
deriving DecidableEq

/-- One of the two has gone, so that nothing more goes either way. -/
def Link.hangUp (l : Link) : Link := { up := l.up.close, down := l.down.close }

end RpcClient
