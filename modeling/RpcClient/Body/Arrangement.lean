/-
The written forms of a body, when the entries of its maps may stand in more
than one order. A codec writes one of them (`Arrangement.anyOrder`); a reader
of the binary form also takes maps with entries that others make void
(`Arrangement.laterCounts`). Only maps have more than one form, so for a body
without maps the written form is the one that its codec writes.
-/
import RpcClient.Body.Kind

namespace RpcClient

/-- Which lists of entries may stand for a map. -/
inductive Arrangement where
  /-- Its entries, each once, in any order. -/
  | anyOrder
  /-- Any entries that make the map when of two with one key the later
  counts. -/
  | laterCounts

/-- Whether a list of entries may stand for a map. -/
def Arrangement.Allows {κ α : Type} [Ord κ] [Std.TransOrd κ] [Std.LawfulEqOrd κ]
    (rule : Arrangement) (entries : List (κ × α)) (d : Dict κ α) : Prop :=
  match rule with
  | anyOrder => entries.Perm d.entries
  | laterCounts => Dict.ofList entries = d

namespace Binary

open Format

/-- The entries of headers, as they are written. -/
def headerEntries : Format (List (String × String)) := list (text.pair text)

/-- A written form of a frame. -/
def FrameForm (rule : Arrangement) : Frame → Bytes → Prop
  | .callRequest c, form =>
    ∃ hs ths, rule.Allows hs c.headers ∧ rule.Allows ths c.transportHeaders ∧
      form = u32.write 2 ++ (callFields headerEntries).write
        (c.id, c.ttlMs, c.service, c.endpoint, hs, ths, c.body)
  | .callResponse r, form =>
    ∃ hs ths, rule.Allows hs r.headers ∧ rule.Allows ths r.transportHeaders ∧
      form = u32.write 3 ++ (replyFields headerEntries).write (r.id, r.code, hs, ths, r.body)
  | f, form => form = frame.write f

/-- A written form of a body. -/
def BodyForm (rule : Arrangement) : (k : Body.Kind) → k.Value → Bytes → Prop
  | .map, d, form => ∃ entries, rule.Allows entries d ∧ form = (list (text.pair i64)).write entries
  | .pairMap, d, form =>
    ∃ entries, rule.Allows entries d ∧ form = (list (bytePair.pair u8)).write entries
  | .frame, f, form => FrameForm rule f form
  | k, v, form => form = k.binary.write v

end Binary

namespace Json

open Format

/-- What may be written for a frame. -/
def FrameForm (rule : Arrangement) : Frame → Option Document → Prop
  | .callRequest c, form =>
    ∃ hs ths, rule.Allows hs c.headers ∧ rule.Allows ths c.transportHeaders ∧
      form = choice "CallRequest" (callObject c (textEntries text hs) (textEntries text ths))
  | .callResponse r, form =>
    ∃ hs ths, rule.Allows hs r.headers ∧ rule.Allows ths r.transportHeaders ∧
      form = choice "CallResponse" (replyObject r (textEntries text hs) (textEntries text ths))
  | f, form => form = frame.write f

/-- What may be written for a body: a document, or none. -/
def BodyForm (rule : Arrangement) : (k : Body.Kind) → k.Value → Option Document → Prop
  | .map, d, form => ∃ entries, rule.Allows entries d ∧ form = textEntries i64 entries
  | .frame, f, form => FrameForm rule f form
  | k, v, form => form = k.json.write v

end Json

end RpcClient
