/-
Written bytes that are cut short are refused. The cut is not followed through
the parts of a form: what a reader takes off the front does not depend on what
comes behind it (`Steady`, one lemma for each way to put formats together), so
a reader that took the cut form would take the same off the whole one and
leave something over, while the whole one is read to its end (`body_reads`).
-/
import RpcClient.Body.Codec
import RpcClient.Proofs.Binary.Body

namespace RpcClient

namespace Bytes

theorem splitExact_eq_some {n : Nat} {bytes front rest : Bytes}
    (h : splitExact n bytes = some (front, rest)) : bytes = front ++ rest ∧ front.length = n := by
  suffices hgo : ∀ seen, splitExact.go n seen bytes = some (front, rest) →
      seen.reverse ++ bytes = front ++ rest ∧ front.length = seen.length + n by
    simpa using hgo [] h
  clear h
  induction n generalizing bytes with
  | zero =>
    intro seen h
    simp only [splitExact.go, Option.some.injEq, Prod.mk.injEq] at h
    obtain ⟨rfl, rfl⟩ := h
    simp
  | succ n ih =>
    intro seen h
    cases bytes with
    | nil => simp [splitExact.go] at h
    | cons b bytes =>
      obtain ⟨heq, hlength⟩ := ih (b :: seen) h
      rw [List.length_cons] at hlength
      exact ⟨by simpa using heq, by omega⟩

theorem splitExact_more {n : Nat} {bytes front rest : Bytes}
    (h : splitExact n bytes = some (front, rest)) (more : Bytes) :
    splitExact n (bytes ++ more) = some (front, rest ++ more) := by
  obtain ⟨rfl, rfl⟩ := splitExact_eq_some h
  rw [List.append_assoc]
  exact splitExact_append front (rest ++ more)

end Bytes

namespace Binary

variable {α β : Type}

/-! ## Readers that do not look ahead -/

/-- What is read is also read when more bytes follow, and these are left. -/
def Steady (read : Reader α) : Prop :=
  ∀ bytes a rest more, read bytes = .ok (a, rest) → read (bytes ++ more) = .ok (a, rest ++ more)

theorem steady_ok (a : α) : Steady fun bytes => .ok (a, bytes) := by
  intro bytes a' rest more h
  cases h
  rfl

theorem steady_error (fault : Fault) : Steady (α := α) fun _ => .error fault := by
  intro bytes a rest more h
  cases h

/-- One reader after another, the second one chosen by what the first one
took. -/
theorem Steady.andThen {read : Reader α} (hread : Steady read)
    {follow : α × Bytes → Except Fault (β × Bytes)}
    (hfollow : ∀ a, Steady fun rest => follow (a, rest)) :
    Steady fun bytes => read bytes >>= follow := by
  intro bytes b rest more h
  cases hfirst : read bytes with
  | error fault => simp only [hfirst, bind, Except.bind, reduceCtorEq] at h
  | ok taken =>
    obtain ⟨a, middle⟩ := taken
    simp only [hfirst, bind, Except.bind] at h
    simp only [hread bytes a middle more hfirst, bind, Except.bind]
    exact hfollow a middle b rest more h

/-- A choice between readers. -/
theorem Steady.ite {c : Prop} [Decidable c] {read read' : Reader α} (h : Steady read)
    (h' : Steady read') : Steady fun bytes => if c then read bytes else read' bytes := by
  by_cases hc : c
  · simpa only [if_pos hc] using h
  · simpa only [if_neg hc] using h'

namespace Format

theorem steady_number (width : Nat) : Steady (number width).read := by
  intro bytes n rest more h
  simp only [number, readNumber] at h ⊢
  split at h
  · next front rest' hsplit =>
    cases h
    simp only [Bytes.splitExact_more hsplit more]
  · cases h

theorem steady_via {f : Format α} (h : Steady f.read) (out : β → α) (back : α → β) :
    Steady (f.via out back).read := h.andThen fun a => steady_ok (back a)

theorem steady_viaChecked {f : Format α} (h : Steady f.read) (out : β → α)
    (back : α → Except Fault β) : Steady (f.viaChecked out back).read := by
  refine h.andThen fun a => ?_
  dsimp only
  cases back a with
  | error fault => exact steady_error fault
  | ok b => exact steady_ok b

theorem steady_u8 : Steady u8.read := steady_via (steady_number 1) _ _

theorem steady_u32 : Steady u32.read := steady_via (steady_number 4) _ _

theorem steady_u64 : Steady u64.read := steady_via (steady_number 8) _ _

theorem steady_i64 : Steady i64.read := steady_via steady_u64 _ _

theorem steady_oneOf [DecidableEq α] (choices : List α) : Steady (oneOf choices).read :=
  steady_viaChecked steady_u32 _ _

theorem steady_pair {f : Format α} {g : Format β} (hf : Steady f.read) (hg : Steady g.read) :
    Steady (f.pair g).read := hf.andThen fun a => hg.andThen fun b => steady_ok (a, b)

theorem steady_text : Steady text.read := by
  refine (steady_number 8).andThen fun length bytes s rest more h => ?_
  dsimp only at h ⊢
  split at h
  · cases h
  · next front rest' hsplit =>
    simp only [Bytes.splitExact_more hsplit more]
    split at h
    · cases h
      rfl
    · cases h

theorem steady_option {f : Format α} (h : Steady f.read) : Steady (option f).read :=
  steady_u8.andThen fun _ =>
    .ite (steady_ok none) (.ite (h.andThen fun a => steady_ok (some a)) (steady_error _))

theorem steady_readMany {read : Reader α} (h : Steady read) (n : Nat) (seen : List α) :
    Steady (readMany read n seen) := by
  induction n generalizing seen with
  | zero => exact steady_ok seen.reverse
  | succ n ih =>
    intro bytes as rest more hread
    simp only [readMany] at hread ⊢
    split at hread
    · next a middle hfirst =>
      simp only [h bytes a middle more hfirst]
      exact ih (a :: seen) middle as rest more hread
    · cases hread

theorem steady_list {f : Format α} (h : Steady f.read) : Steady f.list.read :=
  (steady_number 8).andThen fun n => steady_readMany h n []

theorem steady_dict [Ord α] [Std.TransOrd α] [Std.LawfulEqOrd α] {key : Format α}
    {value : Format β} (hkey : Steady key.read) (hvalue : Steady value.read) :
    Steady (dict key value).read := steady_via (steady_list (steady_pair hkey hvalue)) _ _

/-! ## Records and frames -/

theorem steady_bytes : Steady bytes.read := steady_list steady_u8

theorem steady_identity : Steady identity.read :=
  steady_via (steady_pair (steady_via (steady_number 2) _ _) (steady_pair steady_text steady_text))
    _ _

theorem steady_call : Steady call.read := by
  have hheaders : Steady headers.read := steady_dict steady_text steady_text
  exact steady_via (steady_pair steady_u32 (steady_pair steady_u32 (steady_pair steady_text
    (steady_pair steady_text (steady_pair hheaders (steady_pair hheaders steady_bytes)))))) _ _

theorem steady_reply : Steady reply.read := by
  have hheaders : Steady headers.read := steady_dict steady_text steady_text
  exact steady_via (steady_pair steady_u32 (steady_pair (steady_oneOf _) (steady_pair hheaders
    (steady_pair hheaders steady_bytes)))) _ _

theorem steady_failureReport : Steady failureReport.read :=
  steady_via (steady_pair steady_u32 (steady_pair (steady_oneOf _) steady_text)) _ _

theorem steady_map {read : Reader α} (h : Steady read) (g : α → β) :
    Steady fun bytes => (read bytes).map fun (a, rest) => (g a, rest) := by
  intro bytes b rest more hread
  cases hfirst : read bytes with
  | error fault => simp only [hfirst, Except.map, reduceCtorEq] at hread
  | ok taken =>
    obtain ⟨a, middle⟩ := taken
    simp only [hfirst, Except.map, Except.ok.injEq, Prod.mk.injEq] at hread
    obtain ⟨rfl, rfl⟩ := hread
    simp only [h bytes a middle more hfirst, Except.map]

theorem steady_frame : Steady frame.read := by
  refine steady_u32.andThen fun kind => ?_
  dsimp only
  split
  · exact steady_map steady_identity _
  · exact steady_map steady_identity _
  · exact steady_map steady_call _
  · exact steady_map steady_reply _
  · exact steady_map steady_failureReport _
  · exact steady_error _

/-! ## Trees -/

theorem steady_nodeBelow (height : Nat) : Steady (nodeBelow height).read := by
  induction height with
  | zero => exact steady_error _
  | succ height ih =>
    rw [nodeBelow_succ]
    exact steady_via (steady_pair steady_text (steady_pair (steady_option steady_text)
      (steady_list ih))) _ _

/-- What one reader takes, another takes too. -/
def Within (read read' : Reader α) : Prop :=
  ∀ bytes taken, read bytes = .ok taken → read' bytes = .ok taken

theorem Within.refl (read : Reader α) : Within read read := fun _ _ h => h

theorem Within.andThen {read read' : Reader α} (h : Within read read')
    {follow follow' : α × Bytes → Except Fault (β × Bytes)}
    (hfollow : ∀ a, Within (fun rest => follow (a, rest)) fun rest => follow' (a, rest)) :
    Within (fun bytes => read bytes >>= follow) fun bytes => read' bytes >>= follow' := by
  intro bytes taken hread
  cases hfirst : read bytes with
  | error fault => simp only [hfirst, bind, Except.bind, reduceCtorEq] at hread
  | ok first =>
    simp only [hfirst, bind, Except.bind] at hread
    simp only [h bytes first hfirst, bind, Except.bind]
    exact hfollow first.1 first.2 taken hread

theorem within_readMany {read read' : Reader α} (h : Within read read') (n : Nat) (seen : List α) :
    Within (readMany read n seen) (readMany read' n seen) := by
  induction n generalizing seen with
  | zero => exact .refl _
  | succ n ih =>
    intro bytes taken hread
    simp only [readMany] at hread ⊢
    split at hread
    · next a rest hfirst =>
      simp only [h bytes _ hfirst]
      exact ih (a :: seen) rest taken hread
    · cases hread

theorem within_pair {f : Format α} {g g' : Format β} (h : Within g.read g'.read) :
    Within (f.pair g).read (f.pair g').read :=
  (Within.refl f.read).andThen fun _ => h.andThen fun _ => .refl _

/-- A reader of trees takes what one of less height takes. -/
theorem within_nodeBelow (height : Nat) :
    Within (nodeBelow height).read (nodeBelow (height + 1)).read := by
  induction height with
  | zero =>
    intro bytes taken h
    cases h
  | succ height ih =>
    have hchildren : Within (nodeBelow height).list.read (nodeBelow (height + 1)).list.read :=
      (Within.refl count.read).andThen fun n => within_readMany ih n []
    have hfields : Within (nodeFields height).read (nodeFields (height + 1)).read :=
      within_pair (within_pair hchildren)
    rw [nodeBelow_succ, nodeBelow_succ]
    exact hfields.andThen fun _ => .refl _

theorem readNode_mono {height height' : Nat} (hle : height ≤ height') {bytes : Bytes}
    {taken : Node × Bytes} (h : readNode height bytes = .ok taken) :
    readNode height' bytes = .ok taken := by
  induction hle with
  | refl => exact h
  | step _ ih => exact within_nodeBelow _ bytes taken ih

theorem steady_node : Steady node.read := by
  intro bytes n rest more h
  have hmore := steady_nodeBelow (bytes.length + 1) bytes n rest more h
  have hheight : bytes.length + 1 ≤ (bytes ++ more).length + 1 := by
    rw [List.length_append]
    omega
  exact readNode_mono hheight hmore

/-! ## Bodies -/

theorem body_steady (k : Body.Kind) : Steady k.binary.read := by
  cases k with
  | unit => exact steady_ok ()
  | bool => exact steady_viaChecked steady_u8 _ _
  | u8 => exact steady_u8
  | u16 => exact steady_via (steady_number 2) _ _
  | u32 => exact steady_u32
  | u64 => exact steady_u64
  | i64 => exact steady_i64
  | text => exact steady_text
  | optionalText => exact steady_option steady_text
  | bytes => exact steady_bytes
  | map => exact steady_dict steady_text steady_i64
  | pairMap => exact steady_dict (steady_via (steady_pair steady_u8 steady_u8) _ _) steady_u8
  | account => exact steady_via (steady_pair steady_u64 steady_text) _ _
  | ledger => exact steady_via (steady_pair steady_u64 (steady_list steady_i64)) _ _
  | node => exact steady_node
  | scheme => exact steady_oneOf _
  | direction => exact steady_oneOf _
  | errorKind => exact steady_oneOf _
  | replyCode => exact steady_oneOf _
  | frame => exact steady_frame

/-- A form that was cut short would be read up to somewhere before the cut,
but the whole form is read to its end. -/
theorem Reads.cut_refused {f : Format α} (hsteady : Steady f.read) {a : α} {form : Bytes}
    (h : f.Reads a form) (fits : form.length < UInt64.size) {front : Bytes}
    (hfront : front <+: form) (hcut : front ≠ form) : ∃ fault, f.read front = .error fault := by
  obtain ⟨more, rfl⟩ := hfront
  cases hread : f.read front with
  | error fault => exact ⟨fault, rfl⟩
  | ok taken =>
    obtain ⟨b, rest⟩ := taken
    have hpart := hsteady front b rest more hread
    have hwhole := h fits []
    rw [List.append_nil, hpart, Except.ok.injEq, Prod.mk.injEq] at hwhole
    have hnothing : more = [] := (List.append_eq_nil_iff.1 hwhole.2).2
    exact absurd (by rw [hnothing, List.append_nil]) hcut

end Format

end Binary

namespace Codec

open Binary Binary.Format

/-- **Decoding undoes encoding, and takes nothing that was cut short.** What
is encoded of a body is one of its written forms. From each of these, whatever
the order of the entries of its maps and whatever follows it, the body is
decoded again; from a front part of one nothing is decoded. Since lengths take
eight bytes, the form is one whose own length fits there. -/
theorem binary_undoes_encoding (k : Body.Kind) (v : k.Value) :
    (∃ form, binary.encode k v = .ok form ∧ BodyForm .anyOrder k v form) ∧
    ∀ rule form, BodyForm rule k v form → form.length < UInt64.size →
      (∀ rest, binary.decode k (form ++ rest) = .ok v) ∧
      ∀ front, front <+: form → front ≠ form →
        ∃ fault, binary.decode k front = .error (.binary fault) := by
  refine ⟨⟨_, rfl, bodyForm_write k v⟩, fun rule form hform fits => ⟨fun rest => ?_, ?_⟩⟩
  · simp only [decode, body_reads hform fits rest]
  · intro front hfront hcut
    obtain ⟨fault, hfault⟩ := (body_reads hform).cut_refused (body_steady k) fits hfront hcut
    exact ⟨fault, by simp only [decode, hfault]⟩

/-- Two entries, the later key first, with a byte behind them or without their
last byte. -/
theorem binary_undoes_reversed_entries :
    let v : Dict String Int64 := .ofList [("a", 1), ("b", -1)]
    let form := (list (text.pair i64)).write [("b", -1), ("a", 1)]
    (BodyForm .anyOrder .map v form ∧ form.length < UInt64.size ∧
      form.dropLast <+: form ∧ form.dropLast ≠ form) ∧
    binary.decode .map (form ++ [7]) = .ok v ∧
    ∃ fault, binary.decode .map form.dropLast = .error (.binary fault) := by
  intro v form
  have hform : BodyForm .anyOrder .map v form := ⟨_, .swap _ _ _, rfl⟩
  have fits : form.length < UInt64.size := by decide
  have hfront : form.dropLast <+: form := List.dropLast_prefix form
  have hcut : form.dropLast ≠ form := by decide
  obtain ⟨hwhole, hpart⟩ := (binary_undoes_encoding .map v).2 .anyOrder form hform fits
  exact ⟨⟨hform, fits, hfront, hcut⟩, hwhole [7], hpart _ hfront hcut⟩

end Codec

end RpcClient
