/-
Some records that bodies of calls are made of: an account, a ledger of
entries, and a tree of notes of any depth.
-/
import RpcClient.Binary.Frame
import RpcClient.Json.Frame

namespace RpcClient

/-- An account and who owns it. -/
structure Account where
  id : UInt64
  owner : String
deriving DecidableEq

/-- The entries booked to an account. -/
structure Ledger where
  account : UInt64
  entries : List Int64
deriving DecidableEq

/-- A name, perhaps a note, and more of the same below it. -/
inductive Node where
  | mk (name : String) (note : Option String) (children : List Node)

/-- Two bytes, in the order of the first and then of the second. -/
structure BytePair where
  first : UInt8
  second : UInt8
deriving DecidableEq

namespace BytePair

/-- The place of a pair in their order. -/
def rank (p : BytePair) : Nat := p.first.toNat * 256 + p.second.toNat

theorem rank_inj {p q : BytePair} (h : p.rank = q.rank) : p = q := by
  obtain ⟨a, b⟩ := p
  obtain ⟨c, d⟩ := q
  simp only [rank] at h
  have hb := b.toNat_lt
  have hd := d.toNat_lt
  have h1 : a.toNat = c.toNat := by omega
  have h2 : b.toNat = d.toNat := by omega
  rw [UInt8.toNat_inj.1 h1, UInt8.toNat_inj.1 h2]

instance : Ord BytePair := ⟨fun p q => compare p.rank q.rank⟩

theorem compare_def (p q : BytePair) : compare p q = compare p.rank q.rank := rfl

instance : Std.TransOrd BytePair where
  eq_swap := by intro p q; simp only [compare_def]; exact Std.OrientedCmp.eq_swap
  isLE_trans := by intro p q r h1 h2; simp only [compare_def] at *; exact Std.TransCmp.isLE_trans h1 h2

instance : Std.LawfulEqOrd BytePair where
  compare_self := by intro p; simp only [compare_def]; exact Std.ReflCmp.compare_self
  eq_of_compare := by
    intro p q h
    simp only [compare_def] at h
    exact rank_inj (Std.LawfulEqCmp.eq_of_compare h)

end BytePair

/-! ## Binary forms -/

namespace Binary.Format

def account : Format Account :=
  (u64.pair text).via (fun a => (a.id, a.owner)) (fun (id, owner) => { id, owner })

def ledger : Format Ledger :=
  (u64.pair (list i64)).via (fun l => (l.account, l.entries))
    (fun (account, entries) => { account, entries })

def bytePair : Format BytePair :=
  (u8.pair u8).via (fun p => (p.first, p.second)) (fun (first, second) => { first, second })

/-- The bytes of a tree. -/
def writeNode : Node → Bytes
  | .mk name note children =>
    text.write name ++ (option text).write note ++ count.write children.length ++
      children.flatMap writeNode

/-- Reads a tree of less than `height` levels. -/
def readNode : (height : Nat) → Reader Node
  | 0, _ => .error .endOfInput
  | height + 1, bytes => do
    let (name, rest) ← text.read bytes
    let (note, rest) ← (option text).read rest
    let (n, rest) ← count.read rest
    let (children, rest) ← readMany (readNode height) n [] rest
    .ok (.mk name note children, rest)

/-- Trees. Each level takes some bytes, so there are no more levels than
bytes. -/
def node : Format Node := ⟨writeNode, fun bytes => readNode (bytes.length + 1) bytes⟩

end Binary.Format

/-! ## Documents -/

namespace Json.Format

def account : Format Account where
  write a := object [("id", u64.write a.id), ("owner", text.write a.owner)]
  read depth doc := do
    match ← fields? ["id", "owner"] false depth doc with
    | (depth, [id, owner]) =>
      pure { id := ← required u64 depth id, owner := ← required text depth owner }
    | _ => none

def ledger : Format Ledger where
  write l := object [("account", u64.write l.account), ("entries", (list i64).write l.entries)]
  read depth doc := do
    match ← fields? ["account", "entries"] false depth doc with
    | (depth, [account, entries]) =>
      pure { account := ← required u64 depth account, entries := ← required (list i64) depth entries }
    | _ => none

/-- The document of a tree. -/
def writeNode : Node → Document
  | .mk name note children =>
    .object
      [(spell "name", .text (spell name)),
        (spell "note", match note with | none => .null | some s => .text (spell s)),
        (spell "children", .array (children.map writeNode))]

/-- Reads a tree; each level of it is an object with an array inside. -/
def readNode : (depth : Nat) → Document → Option Node
  | depth + 2, doc => do
    match ← fields? ["name", "note", "children"] false (depth + 2) doc with
    | (_, [name, note, some (.array items)]) =>
      pure (.mk (← required text (depth + 1) name) (← optional text (depth + 1) note)
        (← items.mapM (readNode depth)))
    | _ => none
  | _, _ => none

def node : Format Node := ⟨fun n => some (writeNode n), readNode⟩

end Json.Format

end RpcClient
