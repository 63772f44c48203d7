/-
Reading a JSON document, one byte after the other. The reader keeps the
containers that are still open, the innermost first, so documents of any depth
are read, and reading is a fold over the bytes. Strings are only checked for
their escapes and for control characters: whether they are text is up to
`unspell?`.
-/
import RpcClient.Json.Document

namespace RpcClient.Json

/-- A container whose end has not come, with what it holds so far, the last
one first. -/
inductive Container where
  | array (items : List Document)
  /-- The value under `name` is the one being read. -/
  | object (members : List (Bytes × Document)) (name : Bytes)

/-- Where in a string the reader stands. -/
inductive InText where
  | plain
  | backslash
  /-- So many hexadecimal digits must come, and one more. -/
  | hex (more : Nat)

/-- What of a number has been read. -/
inductive InNumber where
  | minus | zero | whole | point | fraction | exponent | exponentSign | exponentDigits

/-- What the reader waits for. `outer` is always the list of open
containers. -/
inductive State where
  /-- A value. -/
  | value (outer : List Container)
  /-- The first item of an array, or its end. -/
  | firstItem (outer : List Container)
  /-- The first key of an object, or its end. -/
  | firstMember (outer : List Container)
  /-- A further key. -/
  | nextMember (members : List (Bytes × Document)) (outer : List Container)
  /-- The colon behind a key. -/
  | colon (members : List (Bytes × Document)) (name : Bytes) (outer : List Container)
  /-- The rest of a string that is a value. -/
  | text (place : InText) (seen : Bytes) (outer : List Container)
  /-- The rest of a string that is a key. -/
  | key (place : InText) (seen : Bytes) (members : List (Bytes × Document))
      (outer : List Container)
  /-- The rest of a number, or what follows it. -/
  | number (place : InNumber) (seen : Bytes) (outer : List Container)
  /-- The rest of a word. -/
  | word (rest : Bytes) (meaning : Document) (outer : List Container)
  /-- What follows a value that is complete. -/
  | after (value : Document) (outer : List Container)
  /-- Nothing: the bytes so far begin no document. -/
  | failed

namespace State

/-- The four blanks of the grammar. -/
def isBlank (b : UInt8) : Bool := b = 0x20 || b = 0x0A || b = 0x0D || b = 0x09

def isDigit (b : UInt8) : Bool := 0x30 ≤ b && b ≤ 0x39

def isHexDigit (b : UInt8) : Bool :=
  isDigit b || (0x41 ≤ b && b ≤ 0x46) || (0x61 ≤ b && b ≤ 0x66)

/-- The letters that may stand behind a backslash, but for `u`. -/
def isShortEscape (b : UInt8) : Bool :=
  b = 0x22 || b = 0x5C || b = 0x2F || b = 0x62 || b = 0x66 || b = 0x6E || b = 0x72 || b = 0x74

/-- A byte where a value must begin. -/
def begin (outer : List Container) (b : UInt8) : State :=
  if isBlank b then value outer
  else if b = 0x22 then text .plain [] outer
  else if b = 0x5B then firstItem outer
  else if b = 0x7B then firstMember outer
  else if b = 0x2D then number .minus [b] outer
  else if b = 0x30 then number .zero [b] outer
  else if isDigit b then number .whole [b] outer
  else if b = 0x6E then word (Document.word "ull") .null outer
  else if b = 0x74 then word (Document.word "rue") (.bool true) outer
  else if b = 0x66 then word (Document.word "alse") (.bool false) outer
  else failed

/-- A byte behind a complete value. -/
def follow (doc : Document) (outer : List Container) (b : UInt8) : State :=
  if isBlank b then after doc outer
  else
    match outer with
    | [] => failed
    | .array items :: outer =>
      if b = 0x2C then value (.array (doc :: items) :: outer)
      else if b = 0x5D then after (.array (doc :: items).reverse) outer
      else failed
    | .object members name :: outer =>
      if b = 0x2C then nextMember ((name, doc) :: members) outer
      else if b = 0x7D then after (.object ((name, doc) :: members).reverse) outer
      else failed

/-- A byte of a string: where it leads, unless the string ends there. -/
def textStep (place : InText) (b : UInt8) : Option InText :=
  match place with
  | .plain =>
    if b = 0x5C then some .backslash else if b < 0x20 then none else some .plain
  | .backslash =>
    if b = 0x75 then some (.hex 3) else if isShortEscape b then some .plain else none
  | .hex more =>
    if !isHexDigit b then none
    else
      match more with
      | 0 => some .plain
      | more + 1 => some (.hex more)

/-- A byte of a number: where it leads, if it belongs to the number. -/
def numberStep (place : InNumber) (b : UInt8) : Option InNumber :=
  match place with
  | .minus => if b = 0x30 then some .zero else if isDigit b then some .whole else none
  | .zero => afterWhole b
  | .whole => if isDigit b then some .whole else afterWhole b
  | .point => if isDigit b then some .fraction else none
  | .fraction =>
    if isDigit b then some .fraction
    else if b = 0x65 || b = 0x45 then some .exponent
    else none
  | .exponent =>
    if b = 0x2B || b = 0x2D then some .exponentSign
    else if isDigit b then some .exponentDigits
    else none
  | .exponentSign | .exponentDigits => if isDigit b then some .exponentDigits else none
where
  /-- Behind the digits in front of the point. -/
  afterWhole (b : UInt8) : Option InNumber :=
    if b = 0x2E then some .point
    else if b = 0x65 || b = 0x45 then some .exponent
    else none

/-- Whether a number may end here. No digit may follow a zero in front. -/
def mayEnd : InNumber → Bool
  | .zero | .whole | .fraction | .exponentDigits => true
  | .minus | .point | .exponent | .exponentSign => false

/-- One byte more. -/
def step (state : State) (b : UInt8) : State :=
  match state with
  | value outer => begin outer b
  | firstItem outer =>
    if isBlank b then firstItem outer
    else if b = 0x5D then after (.array []) outer
    else begin (.array [] :: outer) b
  | firstMember outer =>
    if isBlank b then firstMember outer
    else if b = 0x7D then after (.object []) outer
    else if b = 0x22 then key .plain [] [] outer
    else failed
  | nextMember members outer =>
    if isBlank b then nextMember members outer
    else if b = 0x22 then key .plain [] members outer
    else failed
  | colon members name outer =>
    if isBlank b then colon members name outer
    else if b = 0x3A then value (.object members name :: outer)
    else failed
  | text place seen outer =>
    match place, b with
    | .plain, 0x22 => after (.text seen.reverse) outer
    | _, _ =>
      match textStep place b with
      | some place => text place (b :: seen) outer
      | none => failed
  | key place seen members outer =>
    match place, b with
    | .plain, 0x22 => colon members seen.reverse outer
    | _, _ =>
      match textStep place b with
      | some place => key place (b :: seen) members outer
      | none => failed
  | number place seen outer =>
    match numberStep place b with
    | some place => number place (b :: seen) outer
    | none =>
      if mayEnd place && !isDigit b then follow (.number seen.reverse) outer b else failed
  | word rest meaning outer =>
    match rest with
    | [] => failed
    | [c] => if b = c then after meaning outer else failed
    | c :: rest => if b = c then word rest meaning outer else failed
  | after doc outer => follow doc outer b
  | failed => failed

/-- The document, if it is complete. -/
def done? : State → Option Document
  | after doc [] => some doc
  | number place seen [] => if mayEnd place then some (.number seen.reverse) else none
  | _ => none

end State

/-- The document that bytes spell, with nothing but blanks around it. -/
def parse? (bytes : Bytes) : Option Document := (bytes.foldl State.step (.value [])).done?

/-- The first document, with whatever stands behind it: reading goes on from a
state until a document is complete. -/
def State.first? (state : State) : Bytes → Option Document
  | [] => none
  | b :: rest =>
    match state.step b with
    | .after doc [] => some doc
    | .failed => none
    | state => state.first? rest

end RpcClient.Json
