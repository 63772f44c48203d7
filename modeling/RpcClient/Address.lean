/-
Socket addresses: four bytes or eight 16-bit groups, and a port. The second
kind may carry a zone. `Address.parse?` reads the usual written forms,
`Address.text` writes the shortest one: of the longest run of two or more
zero groups, the first, nothing is written but `::`.
-/

namespace RpcClient

/-- A place to dial. -/
inductive Address where
  /-- Four bytes and a port. -/
  | v4 (a b c d : UInt8) (port : UInt16)
  /-- Eight groups, a zone (0 for none) and a port. -/
  | v6 (groups : List UInt16) (eight : groups.length = 8) (zone : UInt32) (port : UInt16)
deriving DecidableEq

namespace Address

/-! ## Reading -/

/-- The value of a digit in a base up to sixteen. -/
def digit? (base : Nat) (c : Char) : Option Nat :=
  let v := if '0' ≤ c ∧ c ≤ '9' then c.toNat - '0'.toNat
    else if 'a' ≤ c ∧ c ≤ 'f' then c.toNat - 'a'.toNat + 10
    else if 'A' ≤ c ∧ c ≤ 'F' then c.toNat - 'A'.toNat + 10
    else base
  if v < base then some v else none

/-- The digits at the front of a text, with their value, how many they are,
and what follows. -/
def digits (base : Nat) : List Char → Nat → Nat → Nat × Nat × List Char
  | [], value, count => (value, count, [])
  | c :: cs, value, count =>
    match digit? base c with
    | some v => digits base cs (value * base + v) (count + 1)
    | none => (value, count, c :: cs)

/-- A number of at most `width` digits below `bound`; zeros in front count as
digits. -/
def number? (base width bound : Nat) (cs : List Char) : Option (Nat × List Char) :=
  let (value, count, rest) := digits base cs 0 0
  if count = 0 ∨ width < count ∨ bound ≤ value then none else some (value, rest)

/-- One of the four decimal bytes, written without zeros in front. -/
def byte? (cs : List Char) : Option (UInt8 × List Char) :=
  match cs with
  | '0' :: c :: rest => if (digit? 10 c).isSome then none else some (0, c :: rest)
  | _ => (number? 10 3 256 cs).map fun (n, rest) => (UInt8.ofNat n, rest)

/-- Skips one character, which must be `c`. -/
def skip? (c : Char) : List Char → Option (List Char)
  | x :: xs => if x = c then some xs else none
  | [] => none

/-- Four bytes with dots between them. -/
def quad? (cs : List Char) : Option ((UInt8 × UInt8 × UInt8 × UInt8) × List Char) := do
  let (a, cs) ← byte? cs
  let (b, cs) ← byte? (← skip? '.' cs)
  let (c, cs) ← byte? (← skip? '.' cs)
  let (d, cs) ← byte? (← skip? '.' cs)
  pure ((a, b, c, d), cs)

/-- The two groups that four bytes make. -/
def pairUp : UInt8 × UInt8 × UInt8 × UInt8 → List UInt16
  | (a, b, c, d) => [a.toUInt16 * 256 + b.toUInt16, c.toUInt16 * 256 + d.toUInt16]

/-- As many groups as there are, at most `limit`, with colons between them.
Four bytes with dots may stand for the last two; the answer says whether they
did. `first` holds before the first group. -/
def groups : (limit : Nat) → (first : Bool) → List Char → List UInt16 × Bool × List Char
  | 0, _, cs => ([], false, cs)
  | limit + 1, first, cs =>
    let start := if first then some cs else skip? ':' cs
    let quad := if 0 < limit then start.bind quad? else none
    match quad with
    | some (q, rest) => (pairUp q, true, rest)
    | none =>
      match start.bind (number? 16 4 65536) with
      | none => ([], false, cs)
      | some (n, rest) =>
        let (gs, dotted, rest) := groups limit false rest
        (UInt16.ofNat n :: gs, dotted, rest)

/-- Eight groups, or fewer around one `::`, which stands for zeros. -/
def eight? (cs : List Char) : Option ({ gs : List UInt16 // gs.length = 8 } × List Char) :=
  let (front, dotted, rest) := groups 8 true cs
  if h : front.length = 8 then some (⟨front, h⟩, rest)
  else if dotted then none
  else do
    let rest ← skip? ':' rest
    let rest ← skip? ':' rest
    let (back, _, rest) := groups (7 - front.length) true rest
    let gs := front ++ List.replicate (8 - front.length - back.length) 0 ++ back
    if h : gs.length = 8 then some (⟨gs, h⟩, rest) else none

/-- A colon and a port number, up to the end of the text. -/
def port? (cs : List Char) : Option UInt16 := do
  let (n, rest) ← number? 10 cs.length 65536 (← skip? ':' cs)
  if rest.isEmpty then some (UInt16.ofNat n) else none

/-- Reads `a.b.c.d:port` or `[groups]:port`, the latter with `%zone` before
the bracket if there is one. -/
def parse? (s : String) : Option Address :=
  match s.toList with
  | '[' :: cs => do
    let (⟨gs, h⟩, cs) ← eight? cs
    let (zone, cs) ← match cs with
      | '%' :: cs => (number? 10 cs.length 4294967296 cs).map fun (n, rest) => (UInt32.ofNat n, rest)
      | _ => some (0, cs)
    let port ← port? (← skip? ']' cs)
    pure (.v6 gs h zone port)
  | cs => do
    let ((a, b, c, d), cs) ← quad? cs
    pure (.v4 a b c d (← port? cs))

/-! ## Writing -/

/-- Four bytes, with dots. -/
def quadText (a b c d : UInt8) : String :=
  toString a.toNat ++ "." ++ toString b.toNat ++ "." ++ toString c.toNat ++ "." ++ toString d.toNat

/-- Groups in hexadecimal, with colons. -/
def groupsText (gs : List UInt16) : String :=
  String.intercalate ":" (gs.map fun g => String.ofList (Nat.toDigits 16 g.toNat))

/-- The length of the run of zeros that each place of a list starts. -/
def zeroRuns : List UInt16 → List Nat
  | [] => []
  | g :: gs =>
    let runs := zeroRuns gs
    (if g = 0 then runs.headD 0 + 1 else 0) :: runs

/-- Eight groups, shortened. Groups that hold four bytes behind `ffff` show
them as bytes. -/
def zonelessText (gs : List UInt16) : String :=
  match gs with
  | [0, 0, 0, 0, 0, 0xffff, x, y] =>
    "::ffff:" ++ quadText (x / 256).toUInt8 x.toUInt8 (y / 256).toUInt8 y.toUInt8
  | _ =>
    let runs := zeroRuns gs
    let longest := runs.foldl max 0
    if longest < 2 then groupsText gs
    else
      let start := runs.findIdx (· == longest)
      groupsText (gs.take start) ++ "::" ++ groupsText (gs.drop (start + longest))

/-- The written form of an address. -/
def text : Address → String
  | .v4 a b c d port => quadText a b c d ++ ":" ++ toString port.toNat
  | .v6 gs _ zone port =>
    "[" ++ zonelessText gs ++ (if zone = 0 then "" else "%" ++ toString zone.toNat) ++ "]:" ++
      toString port.toNat

end Address

end RpcClient
