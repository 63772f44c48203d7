/-
Bodies of every type are read back from each of their written forms
(`body_reads`). A tree is read by a reader of bounded height (`nodeBelow`),
which is put together from one of less height like any other record
(`nodeBelow_succ`), so the induction is on the height.
-/
import RpcClient.Proofs.Binary.ReadBack

namespace RpcClient

/-- The parts of a tree, in the order in which they are written. -/
def Node.fields : Node → String × Option String × List Node
  | .mk name note children => (name, note, children)

/-- The tree with these parts. -/
def Node.ofFields : String × Option String × List Node → Node
  | (name, note, children) => .mk name note children

namespace Binary.Format

variable {α β : Type}

/-! ## Numbers, flags and optional values -/

theorem u64_reads (x : UInt64) : u64.Reads x (u64.write x) := by
  have h := (number_reads 8 x.toNat_lt).via UInt64.toNat UInt64.ofNat
  rw [UInt64.ofNat_toNat] at h
  exact h

theorem i64_reads (x : Int64) : i64.Reads x (i64.write x) := by
  have h := (u64_reads x.toUInt64).via Int64.toUInt64 UInt64.toInt64
  rw [Int64.toInt64_toUInt64] at h
  exact h

theorem unit_reads (x : Unit) : unit.Reads x (unit.write x) := fun _ _ => rfl

theorem bool_reads (b : Bool) : bool.Reads b (bool.write b) := by
  cases b with
  | false => exact (u8_reads 0).viaChecked _ rfl
  | true => exact (u8_reads 1).viaChecked _ rfl

theorem option_reads {f : Format α} (h : ∀ a, f.Reads a (f.write a)) (o : Option α) :
    (option f).Reads o ((option f).write o) := by
  intro hlength rest
  cases o with
  | none =>
    have hmark : u8.read (0 :: rest) = .ok (0, rest) := u8_reads 0 (by decide) rest
    simp only [option, List.singleton_append, hmark, bind, Except.bind, if_true]
  | some a =>
    have hmark : u8.read (1 :: (f.write a ++ rest)) = .ok (1, f.write a ++ rest) :=
      u8_reads 1 (by decide) _
    have hvalue := h a (Nat.lt_of_succ_lt hlength) rest
    have hone : (1 : UInt8) ≠ 0 := by decide
    simp only [option, List.cons_append, hmark, hvalue, bind, Except.bind, hone, if_true, if_false]

/-! ## Records -/

theorem account_reads (a : Account) : account.Reads a (account.write a) :=
  ((u64_reads a.id).pair (text_reads a.owner)).via _ _

theorem ledger_reads (l : Ledger) : ledger.Reads l (ledger.write l) := by
  have hentries : (list i64).Reads l.entries ((list i64).write l.entries) :=
    list_reads (fun x _ => i64_reads x) (length_le_flatMap fun _ => by
      rw [i64, via, u64, via, number, Bytes.length_little]
      decide)
  exact ((u64_reads l.account).pair hentries).via _ _

theorem bytePair_reads (p : BytePair) : bytePair.Reads p (bytePair.write p) :=
  ((u8_reads p.first).pair (u8_reads p.second)).via _ _

theorem room_bytePair (p : BytePair) : 1 ≤ (bytePair.write p).length :=
  room_pair (f := u8) (fun _ => Nat.le_refl 1) u8 (p.first, p.second)

/-! ## Trees -/

/-- Trees, as a reader of some height takes them. -/
def nodeBelow (height : Nat) : Format Node := ⟨writeNode, readNode height⟩

/-- The parts of a tree, those below it as a reader of some height takes
them. -/
def nodeFields (height : Nat) : Format (String × Option String × List Node) :=
  text.pair ((option text).pair (nodeBelow height).list)

/-- A reader of trees takes a record whose last field is for trees of less
height. -/
theorem nodeBelow_succ (height : Nat) :
    nodeBelow (height + 1) = (nodeFields height).via Node.fields Node.ofFields := by
  have hwrite : writeNode = fun n => (nodeFields height).write n.fields := by
    funext n
    obtain ⟨name, note, children⟩ := n
    simp only [writeNode, nodeFields, nodeBelow, pair, list, Node.fields, List.append_assoc]
  have hread : readNode (height + 1) =
      ((nodeFields height).via Node.fields Node.ofFields).read := by
    funext bytes
    simp only [readNode, nodeFields, nodeBelow, via, pair, list, bind, Except.bind]
    cases text.read bytes with
    | error fault => rfl
    | ok name =>
      cases hnote : (option text).read name.2 with
      | error fault => simp only [hnote]
      | ok note =>
        cases hcount : count.read note.2 with
        | error fault => simp only [hnote, hcount]
        | ok n =>
          simp only [hnote, hcount]
          cases readMany (readNode height) n.1 [] n.2 <;> rfl
  rw [nodeBelow, hwrite, hread]
  rfl

theorem length_writeNode_mem (name : String) (note : Option String) {children : List Node}
    {child : Node} (h : child ∈ children) :
    (writeNode child).length < (writeNode (.mk name note children)).length := by
  have hall : (writeNode child).length ≤ (children.flatMap writeNode).length := by
    obtain ⟨before, after, rfl⟩ := List.append_of_mem h
    simp only [List.flatMap_append, List.flatMap_cons, List.length_append]
    omega
  have hname := room_text name
  simp only [writeNode, List.length_append]
  omega

theorem room_writeNode (n : Node) : 1 ≤ (writeNode n).length := by
  obtain ⟨name, note, children⟩ := n
  have hname := room_text name
  simp only [writeNode, List.length_append]
  omega

/-- Every level of a tree takes some bytes. -/
theorem nodeBelow_reads {height : Nat} {n : Node} (h : (writeNode n).length < height) :
    (nodeBelow height).Reads n (writeNode n) := by
  induction height generalizing n with
  | zero => exact absurd h (Nat.not_lt_zero _)
  | succ height ih =>
    obtain ⟨name, note, children⟩ := n
    have hbelow : ∀ child ∈ children,
        (nodeBelow height).Reads child ((nodeBelow height).write child) := by
      intro child hchild
      have hshorter := length_writeNode_mem name note hchild
      exact ih (by omega)
    have hchildren := list_reads hbelow (length_le_flatMap room_writeNode)
    have hfields := (text_reads name).pair ((option_reads text_reads note).pair hchildren)
    have hnode := hfields.via Node.fields Node.ofFields
    have hwrite : writeNode (.mk name note children) =
        (nodeBelow (height + 1)).write (.mk name note children) := rfl
    rw [hwrite, nodeBelow_succ]
    exact hnode

theorem node_reads (n : Node) : node.Reads n (node.write n) := by
  intro hlength rest
  have hheight : (writeNode n).length < (node.write n ++ rest).length + 1 := by
    rw [List.length_append]
    exact Nat.lt_succ_of_le (Nat.le_add_right _ _)
  exact nodeBelow_reads hheight hlength rest

/-! ## Bodies -/

/-- **A body of any type reads back from each of its written forms.** -/
theorem body_reads {rule : Arrangement} {k : Body.Kind} {v : k.Value} {form : Bytes}
    (h : BodyForm rule k v form) : k.binary.Reads v form := by
  cases k with
  | map =>
    obtain ⟨entries, hentries, rfl⟩ := h
    exact dict_reads text_reads i64_reads room_text hentries
  | pairMap =>
    obtain ⟨entries, hentries, rfl⟩ := h
    exact dict_reads bytePair_reads u8_reads room_bytePair hentries
  | frame => exact frame_reads h
  | unit => exact h ▸ unit_reads v
  | bool => exact h ▸ bool_reads v
  | u8 => exact h ▸ u8_reads v
  | u16 => exact h ▸ u16_reads v
  | u32 => exact h ▸ u32_reads v
  | u64 => exact h ▸ u64_reads v
  | i64 => exact h ▸ i64_reads v
  | text => exact h ▸ text_reads v
  | optionalText => exact h ▸ option_reads text_reads v
  | bytes => exact h ▸ bytes_reads v
  | account => exact h ▸ account_reads v
  | ledger => exact h ▸ ledger_reads v
  | node => exact h ▸ node_reads v
  | scheme => exact h ▸ oneOf_reads (by decide) (by cases v <;> decide)
  | direction => exact h ▸ oneOf_reads (by decide) (by cases v <;> decide)
  | errorKind => exact h ▸ oneOf_reads (by decide) (by cases v <;> decide)
  | replyCode => exact h ▸ oneOf_reads (by decide) (by cases v <;> decide)

/-- What is written of a body is one of its forms. -/
theorem bodyForm_write (k : Body.Kind) (v : k.Value) :
    BodyForm .anyOrder k v (k.binary.write v) := by
  cases k with
  | map => exact ⟨_, .refl _, rfl⟩
  | pairMap => exact ⟨_, .refl _, rfl⟩
  | frame => exact frameForm_write v
  | _ => rfl

end Binary.Format

end RpcClient
