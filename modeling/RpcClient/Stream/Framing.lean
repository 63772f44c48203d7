/-
Frames on a stream: each payload has its length in front, in four bytes with
the highest first. A `FrameReader` takes a frame off a stream byte by byte and
refuses one whose length is above `maxLength`; a `FrameWriter` holds what of a
frame has still to be written. The writer does not look at the limit, and of a
length it writes the lowest 32 bits.
-/
import RpcClient.Stream.Pipe

namespace RpcClient

namespace Framing

/-- The longest payload that is read: 100 MiB. -/
def maxLength : Nat := 100 * 1024 * 1024

/-- A payload as it stands on a stream. -/
def framed (payload : Bytes) : Bytes := Bytes.big 4 payload.length ++ payload

/-- The first payload of a stream that has brought some bytes, once it is there
as a whole, or the fault of its length. -/
def first? (bytes : Bytes) : Option (Except FrameFault Bytes) :=
  if bytes.length < 4 then none
  else
    let n := Bytes.ofBig (bytes.take 4)
    if maxLength < n then some (.error (.tooLong n))
    else if bytes.length < 4 + n then none
    else some (.ok ((bytes.drop 4).take n))

end Framing

/-! ## Reading -/

/-- How much of a frame has been read. What was read stands with the last byte
first. -/
inductive FrameReader where
  /-- Less than four bytes of the length. -/
  | length (seen : Bytes)
  /-- The length, and part of the payload: `more` bytes have to come behind the
  next one. -/
  | payload (more : Nat) (seen : Bytes)
deriving DecidableEq

namespace FrameReader

/-- Nothing has been read. -/
def start : FrameReader := .length []

/-- One byte more, and the payload or its fault if that completes the frame. -/
def push (r : FrameReader) (b : UInt8) : FrameReader × Option (Except FrameFault Bytes) :=
  match r with
  | .length seen =>
    if seen.length < 3 then (.length (b :: seen), none)
    else
      let n := Bytes.ofLittle (b :: seen)
      if Framing.maxLength < n then (start, some (.error (.tooLong n)))
      else
        match n with
        | 0 => (start, some (.ok []))
        | more + 1 => (.payload more [], none)
  | .payload 0 seen => (start, some (.ok (b :: seen).reverse))
  | .payload (more + 1) seen => (.payload more (b :: seen), none)

/-- Reads until a frame is complete or the bytes are used up. The answer has
the bytes behind the frame. -/
def read (r : FrameReader) : Bytes → FrameReader × Option (Except FrameFault Bytes) × Bytes
  | [] => (r, none, [])
  | b :: rest =>
    match r.push b with
    | (r, none) => read r rest
    | (r, some result) => (r, some result, rest)

theorem read_rest_length {r r' : FrameReader} {bytes rest : Bytes}
    {result : Except FrameFault Bytes} (h : r.read bytes = (r', some result, rest)) :
    rest.length < bytes.length := by
  induction bytes generalizing r with
  | nil => simp [read] at h
  | cons b bytes ih =>
    simp only [read] at h
    split at h
    · exact Nat.lt_succ_of_lt (ih h)
    · simp only [Prod.mk.injEq] at h
      rw [← h.2.2]
      exact Nat.lt_succ_self _

/-- Reads from a pipe. The answer is there when a frame is complete, when its
length is above the limit, or when the stream has ended, wherever that is. -/
def poll (r : FrameReader) (p : Pipe) : FrameReader × Pipe × Option (Except LinkError Bytes) :=
  match r.read p.buffer with
  | (r, some (.ok bytes), rest) => (r, { p with buffer := rest }, some (.ok bytes))
  | (r, some (.error fault), rest) =>
    (r, { p with buffer := rest }, some (.error (.invalidFrame fault)))
  | (r, none, rest) =>
    (r, { p with buffer := rest }, if p.closed then some (.error .closed) else none)

/-- Reads no more than `count` bytes from a pipe. The end of the stream is found
when nothing stands in front of it. -/
def pollUpTo (count : Nat) (r : FrameReader) (p : Pipe) :
    FrameReader × Pipe × Option (Except LinkError Bytes) :=
  let later := p.buffer.drop count
  match r.read (p.buffer.take count) with
  | (r, some (.ok bytes), rest) => (r, { p with buffer := rest ++ later }, some (.ok bytes))
  | (r, some (.error fault), rest) =>
    (r, { p with buffer := rest ++ later }, some (.error (.invalidFrame fault)))
  | (r, none, rest) =>
    (r, { p with buffer := rest ++ later },
      if p.closed && later.isEmpty then some (.error .closed) else none)

theorem poll_eq_pollUpTo (r : FrameReader) (p : Pipe) :
    r.poll p = r.pollUpTo p.buffer.length p := by
  simp only [poll, pollUpTo, List.take_length, List.drop_length, List.append_nil,
    List.isEmpty_nil, Bool.and_true]

end FrameReader

/-! ## Writing -/

/-- What of a frame has still to be written. -/
structure FrameWriter where
  rest : Bytes := []
deriving DecidableEq

namespace FrameWriter

/-- Nothing of the frame has been written. -/
def ofPayload (payload : Bytes) : FrameWriter := ⟨Framing.framed payload⟩

def isDone (w : FrameWriter) : Bool := w.rest.isEmpty

/-- Writes to a pipe. The answer is there when all is written, or when nobody
is going to read it. -/
def poll (w : FrameWriter) (p : Pipe) : FrameWriter × Pipe × Option (Except LinkError Unit) :=
  if w.isDone then (w, p, some (.ok ()))
  else
    match p.write w.rest with
    | .error fault => (w, p, some (.error (.io fault)))
    | .ok (p, rest) => (⟨rest⟩, p, if rest.isEmpty then some (.ok ()) else none)

/-- Writes no more than `count` bytes to a pipe. -/
def pollUpTo (count : Nat) (w : FrameWriter) (p : Pipe) :
    FrameWriter × Pipe × Option (Except LinkError Unit) :=
  if w.isDone then (w, p, some (.ok ()))
  else
    match p.write (w.rest.take count) with
    | .error fault => (w, p, some (.error (.io fault)))
    | .ok (p, left) =>
      let rest := left ++ w.rest.drop count
      (⟨rest⟩, p, if rest.isEmpty then some (.ok ()) else none)

theorem poll_eq_pollUpTo (w : FrameWriter) (p : Pipe) : w.poll p = w.pollUpTo w.rest.length p := by
  simp only [poll, pollUpTo, List.take_length, List.drop_length, List.append_nil]

end FrameWriter

end RpcClient
