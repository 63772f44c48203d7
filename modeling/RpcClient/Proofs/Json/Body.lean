/-
A body of any type has a document for each order of the entries of its maps, and each of these
stands for it (`body_stands`), but for a map with something in it whose keys are no text
(`keysNotText`). A tree is read like any record with a list in it (`readNode_eq`), so the
induction over trees need not say how much room is left at each level: that the documents of
the trees below stand for them says it for all depths.
-/
import RpcClient.Body.Codec
import RpcClient.Proofs.Json.ReadBack

namespace RpcClient

namespace Json.Format

/-! ## Records -/

theorem account_written (a : Account) : account.Written a := by
  obtain ⟨id, hid, hi⟩ := u64_written a.id
  obtain ⟨owner, howner, ho⟩ := text_written a.owner
  let fields := [("id", id), ("owner", owner)]
  refine ⟨objectOf fields, ?_, record_stands fields (by simp [fields]) ?_ (fun _ _ => rfl)
    fun depth => ?_⟩
  · simp only [account, hid, howner]
    exact object_some fields
  · simp [fields, hi.spelled, ho.spelled]
  · simp only [fields, List.map_cons, List.map_nil, required_bind hi, required_bind ho,
      Option.pure_def, fits_cons, fits_nil]

theorem ledger_written (l : Ledger) : ledger.Written l := by
  obtain ⟨id, hid, hi⟩ := u64_written l.account
  obtain ⟨entries, hentries, he⟩ := list_written fun x (_ : x ∈ l.entries) => i64_written x
  let fields := [("account", id), ("entries", entries)]
  refine ⟨objectOf fields, ?_, record_stands fields (by simp [fields]) ?_ (fun _ _ => rfl)
    fun depth => ?_⟩
  · simp only [ledger, hid, hentries]
    exact object_some fields
  · simp [fields, hi.spelled, he.spelled]
  · simp only [fields, List.map_cons, List.map_nil, required_bind hi, required_bind he,
      Option.pure_def, fits_cons, fits_nil]

/-! ## Trees -/

/-- The document of a note, which is no text where there is none. -/
def noteDocument : Option String → Document
  | none => .null
  | some s => .text (spell s)

theorem note_stands (note : Option String) : (option text).Stands note (noteDocument note) := by
  cases note with
  | none =>
    obtain ⟨doc, hwrite, hdoc⟩ := none_written text
    obtain rfl : Document.null = doc := Option.some.inj hwrite
    exact hdoc
  | some s =>
    obtain ⟨doc, hwrite, hdoc⟩ := option_written (text_written s) (by simp [text])
    obtain rfl : Document.text (spell s) = doc := Option.some.inj hwrite
    exact hdoc

theorem writeNode_eq (name : String) (note : Option String) (children : List Node) :
    writeNode (.mk name note children) = objectOf
      [("name", .text (spell name)), ("note", noteDocument note),
        ("children", .array (children.map writeNode))] := by
  cases note <;> rw [writeNode] <;> rfl

/-- The tree of a record's fields, if these are read. -/
def nodeOfFields : Nat × List (Option Document) → Option Node
  | (depth, [name, note, children]) => do
    pure (.mk (← required text depth name) (← optional text depth note)
      (← required node.list depth children))
  | _ => none

theorem fields?_depth {names : List String} {short : Bool} {depth : Nat} {doc : Document}
    {found : Nat × List (Option Document)} (h : fields? names short depth doc = some found) :
    depth = found.1 + 1 := by
  unfold fields? at h
  split at h
  · simp only [Option.bind_eq_bind, Option.bind_eq_some_iff, Option.pure_def,
      Option.some.injEq] at h
    obtain ⟨_, -, _, -, rfl⟩ := h
    rfl
  · split at h
    · cases h
      rfl
    · split at h
      · cases h
        rfl
      · cases h
  · cases h

theorem nodeOfFields_none {depth : Nat} {name note children : Option Document}
    (h : required node.list depth children = none) :
    nodeOfFields (depth, [name, note, children]) = none := by
  simp only [nodeOfFields, h, Option.bind_eq_bind, Option.bind_none, Option.bind_fun_none]

/-- A tree is read like any record with a list in it: the two levels that reading it takes are
those of the record and of the list. -/
theorem readNode_eq (depth : Nat) (doc : Document) :
    readNode depth doc =
      (fields? ["name", "note", "children"] false depth doc).bind nodeOfFields := by
  cases hfields : fields? ["name", "note", "children"] false depth doc with
  | none =>
    unfold readNode
    split
    · simp only [hfields, Option.bind_eq_bind, Option.bind_none]
    · rfl
  | some found =>
    obtain ⟨below, fields⟩ := found
    obtain rfl : depth = below + 1 := fields?_depth hfields
    rw [Option.bind_some]
    cases below with
    | zero =>
      -- No list may be open inside the record.
      match fields with
      | [name, note, children] => exact (nodeOfFields_none (by cases children <;> rfl)).symm
      | [] | [_] | [_, _] | _ :: _ :: _ :: _ :: _ => rfl
    | succ below =>
      rw [readNode, hfields, Option.bind_eq_bind, Option.bind_some]
      split
      · next heq =>
        cases heq
        rfl
      · next hother =>
        -- Nothing but an array is read as a list.
        match fields with
        | [name, note, children] =>
          refine (nodeOfFields_none ?_).symm
          rcases children with _ | (_ | _ | _ | _ | items | _)
          case some.array => exact absurd rfl (hother _ name note items)
          all_goals rfl
        | [] | [_] | [_, _] | _ :: _ :: _ :: _ :: _ => rfl

theorem node_stands (n : Node) : node.Stands n (writeNode n) := by
  induction n using writeNode.induct with
  | case1 name note children ih =>
    have hname := text_stands name
    have hnote := note_stands note
    have hchildren : node.list.Stands children (.array (children.map writeNode)) :=
      list_stands (List.forall₂_map_right_iff.2 (List.forall₂_same.2 ih))
    let fields := [("name", Document.text (spell name)), ("note", noteDocument note),
      ("children", .array (children.map writeNode))]
    rw [writeNode_eq]
    refine record_stands fields (by simp [fields]) ?_ readNode_eq fun depth => ?_
    · simp [fields, hname.spelled, hnote.spelled, hchildren.spelled]
    · simp only [fields, List.map_cons, List.map_nil, nodeOfFields, required_bind hname,
        optional_bind hnote, required_bind hchildren, Option.pure_def, fits_cons, fits_nil]

/-! ## Bodies -/

/-- Whether a value is a map with something in it whose keys are no text. -/
def keysNotText : (k : Body.Kind) → k.Value → Prop
  | .pairMap, d => d ≠ ∅
  | _, _ => False

theorem emptyDict_stands : (emptyDict : Format (Dict BytePair UInt8)).Stands ∅ (objectOf []) :=
  stands_objectOf (by simp) rfl fun _ => by simp [objectOf, emptyDict]

theorem Written.form {α : Type} {f : Format α} {a : α} (h : f.Written a) {form : Option Document}
    (hform : form = f.write a) : ∃ doc, form = some doc ∧ f.Stands a doc := hform ▸ h

/-- **What may be written for a body is a document that stands for it.** -/
theorem body_stands {rule : Arrangement} {k : Body.Kind} {v : k.Value} {form : Option Document}
    (h : BodyForm rule k v form) (keys : ¬ keysNotText k v) :
    ∃ doc, form = some doc ∧ k.json.Stands v doc := by
  cases k with
  | map =>
    obtain ⟨entries, hentries, rfl⟩ := h
    exact textDict_stands hentries i64_written
  | pairMap =>
    obtain rfl : v = ∅ := not_not.1 keys
    exact ⟨_, h, emptyDict_stands⟩
  | frame => exact frame_stands h
  | unit => exact (unit_written v).form h
  | bool => exact (bool_written v).form h
  | u8 => exact (u8_written v).form h
  | u16 => exact (u16_written v).form h
  | u32 => exact (u32_written v).form h
  | u64 => exact (u64_written v).form h
  | i64 => exact (i64_written v).form h
  | text => exact (text_written v).form h
  | optionalText =>
    cases v with
    | none => exact (none_written text).form h
    | some s => exact (option_written (text_written s) (by simp [text])).form h
  | bytes => exact (bytes_written v).form h
  | account => exact (account_written v).form h
  | ledger => exact (ledger_written v).form h
  | node => exact ⟨_, h, node_stands v⟩
  | scheme => exact (oneOf_written (by cases v <;> decide)).form h
  | direction => exact (oneOf_written (by cases v <;> decide)).form h
  | errorKind => exact (errorKind_written v).form h
  | replyCode => exact (replyCode_written v).form h

/-- Where keys are no text, nothing may be written. -/
theorem body_unwritten {rule : Arrangement} {k : Body.Kind} {v : k.Value} {form : Option Document}
    (h : BodyForm rule k v form) (keys : keysNotText k v) : form = none := by
  cases k with
  | pairMap =>
    obtain rfl : form = emptyDict.write v := h
    have hentries : v.entries ≠ [] := fun hnil => keys (by cases v; cases hnil; rfl)
    exact if_neg (by simpa using hentries)
  | _ => exact keys.elim

/-- What the codec writes for a body is one of these. -/
theorem bodyForm_write (k : Body.Kind) (v : k.Value) :
    BodyForm .anyOrder k v (k.json.write v) := by
  cases k with
  | map => exact ⟨_, .refl _, rfl⟩
  | frame => exact frameForm_write v
  | _ => rfl

end Json.Format

namespace Codec

open Json Json.Format

/-- **Decoding undoes encoding, as far as documents may be nested.** What is encoded of a body
is one of the documents that may be written for it, or the fault that there is none, which is
so for a map with something in it whose keys are no text, and for nothing else. From the bytes
of each of these, whatever the order of the entries of its maps, the body is decoded again, if
at most 127 objects and arrays are nested in it, and otherwise nothing is. -/
theorem json_undoes_encoding (k : Body.Kind) (v : k.Value) :
    (∃ form, BodyForm .anyOrder k v form ∧
      json.encode k v = match form with
        | some doc => .ok doc.bytes
        | none => .error .keyNotText) ∧
    ∀ rule form, BodyForm rule k v form →
      (keysNotText k v → form = none) ∧
      (¬ keysNotText k v → ∃ doc, form = some doc ∧ parse? doc.bytes = some doc ∧
        (doc.depth ≤ 127 → json.decode k doc.bytes = .ok v) ∧
        (127 < doc.depth → ∃ fault, json.decode k doc.bytes = .error fault)) := by
  refine ⟨⟨_, bodyForm_write k v, ?_⟩,
    fun rule form hform => ⟨body_unwritten hform, fun keys => ?_⟩⟩
  · simp only [encode, Format.encode]
    cases k.json.write v <;> rfl
  · obtain ⟨doc, hdoc, hstands⟩ := body_stands hform keys
    have hread : k.json.decode? doc.bytes = if doc.depth ≤ 127 then some v else none := by
      rw [decode?, parse?_bytes hstands.spelled, Option.bind_some, hstands.read]
      rfl
    refine ⟨doc, hdoc, parse?_bytes hstands.spelled, fun fits => ?_, fun deep => ?_⟩
    · simp only [decode, hread, if_pos fits]
    · simp only [decode, hread, if_neg (Nat.not_le.2 deep)]
      split <;> exact ⟨_, rfl⟩

/-- A tree with nothing but one branch, and so many levels below the top. -/
def branch : Nat → Node
  | 0 => .mk "" none []
  | n + 1 => .mk "" none [branch n]

theorem depth_branch (n : Nat) : (writeNode (branch n)).depth = 2 * n + 2 := by
  induction n with
  | zero => simp [branch, writeNode_eq, objectOf, noteDocument, Document.depth]
  | succ n ih =>
    simp [branch, writeNode_eq, objectOf, noteDocument, Document.depth, ih]
    omega

/-- Two entries, the later key first; an entry whose key is no text; and trees with as many
levels as are read, and with one more. -/
theorem json_undoes_sixty_three_levels :
    let v : Dict String Int64 := .ofList [("a", 1), ("b", -1)]
    let reversed := Document.object
      [(spell "b", .number (spellInt (-1))), (spell "a", .number (spellInt 1))]
    let pairs : Dict BytePair UInt8 := .ofList [(⟨1, 2⟩, 3)]
    (BodyForm .anyOrder .map v (some reversed) ∧ ¬ keysNotText .map v ∧ reversed.depth ≤ 127 ∧
      json.decode .map reversed.bytes = .ok v) ∧
    (BodyForm .anyOrder .pairMap pairs none ∧ keysNotText .pairMap pairs ∧
      json.encode .pairMap pairs = .error .keyNotText) ∧
    ((writeNode (branch 62)).depth ≤ 127 ∧
      json.decode .node (writeNode (branch 62)).bytes = .ok (branch 62)) ∧
    127 < (writeNode (branch 63)).depth ∧
      ∃ fault, json.decode .node (writeNode (branch 63)).bytes = .error fault := by
  intro v reversed pairs
  have hflat : reversed.depth ≤ 127 := by simp [reversed, Document.depth]
  have hfits : (writeNode (branch 62)).depth ≤ 127 := by rw [depth_branch]; decide
  have hdeep : 127 < (writeNode (branch 63)).depth := by rw [depth_branch]; decide
  have hform : BodyForm .anyOrder .map v (some reversed) := ⟨_, .swap _ _ _, rfl⟩
  have hkeys : ¬ keysNotText .map v := id
  have hpairs : keysNotText .pairMap pairs := (by decide : pairs ≠ ∅)
  have hnodes : ∀ n, ¬ keysNotText .node n := fun _ => id
  obtain ⟨_, hdoc, -, hreversed, -⟩ := ((json_undoes_encoding .map v).2 _ _ hform).2 hkeys
  obtain ⟨form, hnone, hencode⟩ := (json_undoes_encoding .pairMap pairs).1
  obtain rfl := ((json_undoes_encoding .pairMap pairs).2 _ _ hnone).1 hpairs
  obtain ⟨_, h62, -, hread, -⟩ :=
    ((json_undoes_encoding .node (branch 62)).2 .anyOrder _ rfl).2 (hnodes _)
  obtain ⟨_, h63, -, -, hrefused⟩ :=
    ((json_undoes_encoding .node (branch 63)).2 .anyOrder _ rfl).2 (hnodes _)
  cases hdoc
  cases h62
  cases h63
  exact ⟨⟨hform, hkeys, hflat, hreversed hflat⟩, ⟨hnone, hpairs, hencode⟩,
    ⟨hfits, hread hfits⟩, hdeep, hrefused hdeep⟩

end Codec

end RpcClient
