/-
A document is read back from its bytes (`parse?_bytes`) if its texts and numbers are
spelled as the grammar has them (`Spelled`). From where a value must begin the reader comes
to where it is complete, whatever is open around it. Only what follows a number shows that it
is, so the reader may then still be within it (`Complete`).
-/
import RpcClient.Json.Parser

namespace RpcClient.Json

open State

/-! ## Spellings -/

/-- Where a byte inside a string leads, unless the string ends there. -/
def InText.next? (place : InText) (b : UInt8) : Option InText :=
  match place, b with
  | .plain, 0x22 => none
  | place, b => textStep place b

/-- What may stand between the quotes of a string. -/
def TextSpelling (bytes : Bytes) : Prop := bytes.foldlM InText.next? .plain = some .plain

/-- A number that may end, with nothing behind it. -/
inductive NumberSpelling : Bytes → Prop
  | mk {first : UInt8} {rest : Bytes} {place place' : InNumber}
      (begins : ∀ outer, begin outer first = .number place [first] outer)
      (goes : rest.foldlM numberStep place = some place') (ends : mayEnd place' = true) :
    NumberSpelling (first :: rest)

/-- All texts and numbers of a document are spelled as the grammar has them. -/
inductive Spelled : Document → Prop
  | null : Spelled .null
  | bool (b : Bool) : Spelled (.bool b)
  | number {spelling : Bytes} (h : NumberSpelling spelling) : Spelled (.number spelling)
  | text {spelling : Bytes} (h : TextSpelling spelling) : Spelled (.text spelling)
  | array {items : List Document} (h : ∀ item ∈ items, Spelled item) : Spelled (.array items)
  | object {members : List (Bytes × Document)} (keys : ∀ m ∈ members, TextSpelling m.1)
      (values : ∀ m ∈ members, Spelled m.2) : Spelled (.object members)

variable {doc : Document} {outer : List Container} {state : State} {b : UInt8} {bytes : Bytes}

/-! ## Within strings and numbers -/

/-- Bytes that lead from place to place are kept, the last one first. -/
theorem foldl_within {P : Type} {next : P → UInt8 → Option P} (within : P → Bytes → State)
    (steps : ∀ place b place' seen, next place b = some place' →
      (within place seen).step b = within place' (b :: seen))
    {place place' : P} (h : bytes.foldlM next place = some place') (seen : Bytes) :
    bytes.foldl step (within place seen) = within place' (bytes.reverse ++ seen) := by
  induction bytes generalizing place seen with
  | nil =>
    cases h
    rfl
  | cons b bytes ih =>
    rw [List.foldlM_cons, Option.bind_eq_bind, Option.bind_eq_some_iff] at h
    obtain ⟨middle, hfirst, hrest⟩ := h
    rw [List.foldl_cons, steps _ _ _ _ hfirst, ih hrest]
    simp

theorem foldl_text {place place' : InText} (h : bytes.foldlM InText.next? place = some place')
    (seen : Bytes) (outer : List Container) :
    bytes.foldl step (.text place seen outer) = .text place' (bytes.reverse ++ seen) outer := by
  refine foldl_within (fun place seen => .text place seen outer) (fun place b place' seen h => ?_)
    h seen
  unfold InText.next? at h
  split at h
  · cases h
  · simp only [step, h]

theorem foldl_key {place place' : InText} (h : bytes.foldlM InText.next? place = some place')
    (seen : Bytes) (members : List (Bytes × Document)) (outer : List Container) :
    bytes.foldl step (.key place seen members outer) =
      .key place' (bytes.reverse ++ seen) members outer := by
  refine foldl_within (fun place seen => .key place seen members outer)
    (fun place b place' seen h => ?_) h seen
  unfold InText.next? at h
  split at h
  · cases h
  · simp only [step, h]

theorem foldl_number {place place' : InNumber} (h : bytes.foldlM numberStep place = some place')
    (seen : Bytes) (outer : List Container) :
    bytes.foldl step (.number place seen outer) = .number place' (bytes.reverse ++ seen) outer :=
  foldl_within (fun place seen => .number place seen outer)
    (fun place b place' seen h => by simp only [step, h]) h seen

/-! ## Complete values -/

/-- A document has been read, though a number might go on. -/
inductive Complete (doc : Document) (outer : List Container) : State → Prop
  | after : Complete doc outer (.after doc outer)
  | number {place : InNumber} {seen : Bytes} (ends : mayEnd place = true)
      (all : doc = .number seen.reverse) : Complete doc outer (.number place seen outer)

/-- What may follow a value in a container. -/
def isDelimiter (b : UInt8) : Bool := b = 0x2C || b = 0x5D || b = 0x7D

theorem Complete.step (h : Complete doc outer state) (hb : isDelimiter b = true) :
    state.step b = follow doc outer b := by
  cases h with
  | after => rfl
  | @number place seen ends all =>
    have hends : numberStep place b = none ∧ isDigit b = false := by
      simp only [isDelimiter, Bool.or_eq_true, decide_eq_true_eq] at hb
      cases place <;> cases ends <;> rcases hb with (rfl | rfl) | rfl <;> exact ⟨rfl, rfl⟩
    simp only [State.step, hends, ends, all]
    rfl

theorem Complete.done (h : Complete doc [] state) : state.done? = some doc := by
  cases h with
  | after => rfl
  | number ends all => simp only [done?, ends, all, if_true]

/-! ## Documents -/

theorem bytes_array (items : List Document) :
    (Document.array items).bytes =
      0x5B :: Document.commaSeparated (items.map Document.bytes) ++ [0x5D] := by
  rw [Document.bytes]

/-- A member as it is written. -/
def memberBytes (member : Bytes × Document) : Bytes :=
  0x22 :: member.1 ++ [0x22, 0x3A] ++ member.2.bytes

theorem bytes_object (members : List (Bytes × Document)) :
    (Document.object members).bytes =
      0x7B :: Document.commaSeparated (members.map memberBytes) ++ [0x7D] := by
  rw [Document.bytes]
  rfl

/-- No value begins with a blank or with the end of an array. -/
theorem Spelled.first (h : Spelled doc) :
    ∃ b rest, doc.bytes = b :: rest ∧ isBlank b = false ∧ b ≠ 0x5D := by
  cases h with
  | null => exact ⟨0x6E, _, by rw [Document.bytes]; rfl, rfl, by decide⟩
  | bool b =>
    cases b with
    | true => exact ⟨0x74, _, by rw [Document.bytes]; rfl, rfl, by decide⟩
    | false => exact ⟨0x66, _, by rw [Document.bytes]; rfl, rfl, by decide⟩
  | number h =>
    obtain ⟨begins, -, -⟩ := h
    refine ⟨_, _, by rw [Document.bytes], ?_, ?_⟩
    · have hbegin := begins []
      unfold begin at hbegin
      split at hbegin
      · cases hbegin
      · next hblank => simpa using hblank
    · rintro rfl
      cases begins []
  | text h => exact ⟨0x22, _, by rw [Document.bytes]; rfl, rfl, by decide⟩
  | array h => exact ⟨0x5B, _, by rw [bytes_array]; rfl, rfl, by decide⟩
  | object keys values => exact ⟨0x7B, _, by rw [bytes_object]; rfl, rfl, by decide⟩

/-- The first item of an array begins like any value. -/
theorem Spelled.foldl_firstItem (h : Spelled doc) (outer : List Container) :
    doc.bytes.foldl step (.firstItem outer) =
      doc.bytes.foldl step (.value (.array [] :: outer)) := by
  obtain ⟨b, rest, hbytes, hblank, hend⟩ := h.first
  have hstep : (State.firstItem outer).step b = (State.value (.array [] :: outer)).step b := by
    simp only [step, hblank, hend, if_false, Bool.false_eq_true]
  rw [hbytes, List.foldl_cons, hstep, List.foldl_cons]

/-- Further items, and the end of the array. -/
theorem foldl_items {rest : List Document} {seen : List Document}
    (reads : ∀ item ∈ rest, ∀ outer, Complete item outer (item.bytes.foldl step (.value outer)))
    (h : Complete doc (.array seen :: outer) state) :
    ((rest.flatMap fun item => 0x2C :: Document.bytes item) ++ [0x5D]).foldl step state =
      .after (.array (seen.reverse ++ doc :: rest)) outer := by
  induction rest generalizing doc seen state with
  | nil =>
    rw [List.flatMap_nil, List.nil_append, List.foldl_cons, h.step rfl]
    simp [follow, isBlank]
  | cons item rest ih =>
    have hnext : state.step 0x2C = .value (.array (doc :: seen) :: outer) := by
      rw [h.step rfl]
      rfl
    have hitem := reads item List.mem_cons_self (.array (doc :: seen) :: outer)
    rw [List.flatMap_cons, List.append_assoc, List.cons_append, List.foldl_cons, hnext,
      List.foldl_append, ih (fun i hi => reads i (List.mem_cons_of_mem _ hi)) hitem]
    simp

/-- A key, from behind the quote in front of it, and its value. -/
theorem foldl_member {member : Bytes × Document} (key : TextSpelling member.1)
    (members : List (Bytes × Document)) (outer : List Container) :
    (member.1 ++ [0x22, 0x3A] ++ member.2.bytes).foldl step (.key .plain [] members outer) =
      member.2.bytes.foldl step (.value (.object members member.1 :: outer)) := by
  rw [List.foldl_append, List.foldl_append, foldl_key key]
  simp only [List.append_nil, List.foldl_cons, List.foldl_nil, step, List.reverse_reverse]
  rfl

/-- Further members, and the end of the object. -/
theorem foldl_members {rest seen : List (Bytes × Document)} {name : Bytes}
    (keys : ∀ m ∈ rest, TextSpelling m.1)
    (reads : ∀ m ∈ rest, ∀ outer, Complete m.2 outer (m.2.bytes.foldl step (.value outer)))
    (h : Complete doc (.object seen name :: outer) state) :
    ((rest.flatMap fun m => 0x2C :: memberBytes m) ++ [0x7D]).foldl step state =
      .after (.object (seen.reverse ++ (name, doc) :: rest)) outer := by
  induction rest generalizing doc seen name state with
  | nil =>
    rw [List.flatMap_nil, List.nil_append, List.foldl_cons, h.step rfl]
    simp [follow, isBlank]
  | cons member rest ih =>
    have hnext : state.step 0x2C = .nextMember ((name, doc) :: seen) outer := by
      rw [h.step rfl]
      rfl
    have hmember := reads member List.mem_cons_self
      (.object ((name, doc) :: seen) member.1 :: outer)
    rw [← foldl_member (keys member List.mem_cons_self)] at hmember
    rw [List.flatMap_cons, List.append_assoc, List.cons_append, List.foldl_cons, hnext,
      List.foldl_append]
    have hquote : (memberBytes member).foldl step (.nextMember ((name, doc) :: seen) outer) =
        (member.1 ++ [0x22, 0x3A] ++ member.2.bytes).foldl step
          (.key .plain [] ((name, doc) :: seen) outer) := rfl
    rw [hquote, ih (fun m hm => keys m (List.mem_cons_of_mem _ hm))
      (fun m hm => reads m (List.mem_cons_of_mem _ hm)) hmember]
    simp

/-- A document is read, whatever is open around it. -/
theorem Spelled.reads (h : Spelled doc) (outer : List Container) :
    Complete doc outer (doc.bytes.foldl step (.value outer)) := by
  induction h generalizing outer with
  | null =>
    rw [Document.bytes]
    exact .after
  | bool b =>
    cases b <;> rw [Document.bytes] <;> exact .after
  | number h =>
    obtain ⟨begins, goes, ends⟩ := h
    rw [Document.bytes, List.foldl_cons]
    have hbegin : ∀ b, (State.value outer).step b = begin outer b := fun _ => rfl
    rw [hbegin, begins, foldl_number goes]
    exact .number ends (by simp)
  | text h =>
    rw [Document.bytes, List.cons_append, List.foldl_cons, List.foldl_append]
    have hbegin : (State.value outer).step 0x22 = .text .plain [] outer := rfl
    rw [hbegin, foldl_text h]
    simp only [List.append_nil, List.foldl_cons, List.foldl_nil, step, List.reverse_reverse]
    exact .after
  | @array items h ih =>
    have hopen : (State.value outer).step 0x5B = .firstItem outer := rfl
    rw [bytes_array, List.cons_append, List.foldl_cons, hopen]
    cases items with
    | nil => exact .after
    | cons first rest =>
      have hfirst := ih first List.mem_cons_self (.array [] :: outer)
      rw [← (h first List.mem_cons_self).foldl_firstItem] at hfirst
      have hrest := foldl_items (fun i hi => ih i (List.mem_cons_of_mem _ hi)) hfirst
      rw [List.map_cons, Document.commaSeparated, List.append_assoc, List.foldl_append,
        List.flatMap_map, hrest]
      exact .after
  | @object members keys values ih =>
    have hopen : (State.value outer).step 0x7B = .firstMember outer := rfl
    rw [bytes_object, List.cons_append, List.foldl_cons, hopen]
    cases members with
    | nil => exact .after
    | cons first rest =>
      have hfirst := ih first List.mem_cons_self (.object [] first.1 :: outer)
      rw [← foldl_member (keys first List.mem_cons_self)] at hfirst
      have hquote : (memberBytes first).foldl step (.firstMember outer) =
          (first.1 ++ [0x22, 0x3A] ++ first.2.bytes).foldl step (.key .plain [] [] outer) := rfl
      rw [← hquote] at hfirst
      have hrest := foldl_members (fun m hm => keys m (List.mem_cons_of_mem _ hm))
        (fun m hm => ih m (List.mem_cons_of_mem _ hm)) hfirst
      rw [List.map_cons, Document.commaSeparated, List.append_assoc, List.foldl_append,
        List.flatMap_map, hrest]
      exact .after

/-- **A document reads back from its bytes.** -/
theorem parse?_bytes (h : Spelled doc) : parse? doc.bytes = some doc := (h.reads []).done

end RpcClient.Json
