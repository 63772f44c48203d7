/-
Only encodings are decoded. What a reader takes was written so: the form of the
value stands at the front of the bytes (`Exact`, one lemma for each way to put
formats together). A map is the exception, since the entries that were read may
have another order, or be void by later ones; a record with maps is read like the
one that has the entries in their place (`ReadsAs`), and that one is exact.

A tree is read by a reader of bounded height. The bound is never met: what a
reader that may go deeper than the bytes are long finds does not depend on how
deep that is (`readNode_enough`).
-/
import RpcClient.Proofs.Binary.Cut

namespace RpcClient

/-- A number that was cut to its width is written as it would have been. -/
theorem Bytes.little_mod (width n : Nat) : little width (n % 256 ^ width) = little width n := by
  have hwritten := little_ofLittle (little width n)
  rwa [length_little, ofLittle_little] at hwritten

namespace Binary.Format

variable {α β γ δ : Type}

/-- A reader after another one has taken something only if that has. -/
theorem bind_eq_ok {x : Except Fault α} {follow : α → Except Fault β} {b : β}
    (h : x >>= follow = .ok b) : ∃ a, x = .ok a ∧ follow a = .ok b := by
  cases x with
  | error fault => cases h
  | ok a => exact ⟨a, rfl, h⟩

/-! ## What is taken was written -/

/-- Whatever a reader takes is the form of its value, and the rest is left over. -/
def Exact (f : Format α) : Prop :=
  ∀ bytes a rest, f.read bytes = .ok (a, rest) → bytes = f.write a ++ rest

theorem exact_number (width : Nat) : Exact (number width) := by
  intro bytes n rest h
  simp only [number, readNumber] at h ⊢
  split at h
  · next front rest' hsplit =>
    cases h
    obtain ⟨rfl, rfl⟩ := Bytes.splitExact_eq_some hsplit
    rw [Bytes.little_ofLittle]
  · cases h

/-- Values that stand for others are written as these were. -/
theorem exact_via {f : Format α} (h : Exact f) {out : β → α} {back : α → β}
    (same : ∀ a, f.write (out (back a)) = f.write a) : Exact (f.via out back) := by
  intro bytes b rest hread
  obtain ⟨⟨a, rest⟩, hfirst, hback⟩ := bind_eq_ok hread
  cases hback
  simp only [via, same]
  exact h bytes a rest hfirst

theorem exact_viaChecked {f : Format α} (h : Exact f) {out : β → α} {back : α → Except Fault β}
    (same : ∀ a b, back a = .ok b → f.write (out b) = f.write a) :
    Exact (f.viaChecked out back) := by
  intro bytes b rest hread
  obtain ⟨⟨a, rest⟩, hfirst, hread⟩ := bind_eq_ok hread
  obtain ⟨b, hback, htaken⟩ := bind_eq_ok hread
  cases htaken
  simp only [viaChecked, same a b hback]
  exact h bytes a rest hfirst

theorem exact_u8 : Exact u8 :=
  exact_via (exact_number 1) fun n => by
    rw [UInt8.toNat_ofNat']
    exact Bytes.little_mod 1 n

theorem exact_u16 : Exact u16 :=
  exact_via (exact_number 2) fun n => by
    rw [UInt16.toNat_ofNat']
    exact Bytes.little_mod 2 n

theorem exact_u32 : Exact u32 :=
  exact_via (exact_number 4) fun n => by
    rw [UInt32.toNat_ofNat']
    exact Bytes.little_mod 4 n

theorem exact_u64 : Exact u64 :=
  exact_via (exact_number 8) fun n => by
    rw [UInt64.toNat_ofNat']
    exact Bytes.little_mod 8 n

theorem exact_i64 : Exact i64 :=
  exact_via exact_u64 fun x => by rw [UInt64.toUInt64_toInt64]

theorem exact_unit : Exact unit := by
  intro bytes a rest h
  cases h
  rfl

theorem exact_bool : Exact bool := by
  refine exact_viaChecked exact_u8 fun x b hback => ?_
  split at hback
  · next hzero =>
    cases hback
    rw [hzero]
    rfl
  · split at hback
    · next hone =>
      cases hback
      rw [hone]
      rfl
    · cases hback

/-- A place in a list stands for one value only if no value is there twice. -/
theorem exact_oneOf [DecidableEq α] {choices : List α} (nodup : choices.Nodup) :
    Exact (oneOf choices) := by
  refine exact_viaChecked exact_u32 fun i a hback => ?_
  split at hback
  · next a' hplace =>
    cases hback
    obtain ⟨hlt, rfl⟩ := List.getElem?_eq_some_iff.1 hplace
    rw [nodup.idxOf_getElem, UInt32.ofNat_toNat]
  · cases hback

theorem exact_text : Exact text := by
  intro bytes s rest h
  obtain ⟨⟨n, middle⟩, hcount, h⟩ := bind_eq_ok h
  dsimp only at h
  split at h
  · cases h
  · next front rest' hsplit =>
    obtain ⟨rfl, rfl⟩ := Bytes.splitExact_eq_some hsplit
    split at h
    · next s' hdecode =>
      cases h
      simp only [text, Utf8.encode_decode hdecode, List.append_assoc]
      exact exact_number 8 bytes front.length _ hcount
    · cases h

theorem exact_option {f : Format α} (h : Exact f) : Exact (option f) := by
  intro bytes o rest hread
  obtain ⟨⟨mark, middle⟩, hmark, hread⟩ := bind_eq_ok hread
  have hbytes : bytes = [UInt8.ofNat mark.toNat] ++ middle := exact_u8 bytes mark middle hmark
  rw [UInt8.ofNat_toNat] at hbytes
  dsimp only at hread
  split at hread
  · next hzero =>
    cases hread
    rw [hbytes, hzero]
    rfl
  · split at hread
    · next hone =>
      obtain ⟨⟨a, rest⟩, hvalue, htaken⟩ := bind_eq_ok hread
      cases htaken
      rw [hbytes, hone, h middle a rest hvalue]
      rfl
    · cases hread

theorem exact_pair {f : Format α} {g : Format β} (hf : Exact f) (hg : Exact g) :
    Exact (f.pair g) := by
  intro bytes p rest hread
  obtain ⟨⟨a, middle⟩, hfirst, hread⟩ := bind_eq_ok hread
  obtain ⟨⟨b, rest⟩, hsecond, htaken⟩ := bind_eq_ok hread
  cases htaken
  rw [hf bytes a middle hfirst, hg middle b rest hsecond, pair, List.append_assoc]

/-- As many values are read as there should be. -/
theorem exact_readMany {f : Format α} (h : Exact f) {n : Nat} {seen as : List α}
    {bytes rest : Bytes} (hread : readMany f.read n seen bytes = .ok (as, rest)) :
    ∃ more, as = seen.reverse ++ more ∧ more.length = n ∧ bytes = more.flatMap f.write ++ rest := by
  induction n generalizing seen bytes with
  | zero =>
    cases hread
    exact ⟨[], by simp, rfl, rfl⟩
  | succ n ih =>
    simp only [readMany] at hread
    split at hread
    · next a middle hfirst =>
      obtain ⟨more, rfl, rfl, rfl⟩ := ih hread
      refine ⟨a :: more, by simp, rfl, ?_⟩
      rw [h bytes a _ hfirst, List.flatMap_cons, List.append_assoc]
    · cases hread

theorem exact_list {f : Format α} (h : Exact f) : Exact f.list := by
  intro bytes as rest hread
  obtain ⟨⟨n, middle⟩, hcount, hread⟩ := bind_eq_ok hread
  obtain ⟨more, has, rfl, rfl⟩ := exact_readMany h hread
  rw [List.reverse_nil, List.nil_append] at has
  rw [has, list, List.append_assoc]
  exact exact_number 8 bytes more.length _ hcount

theorem exact_bytes : Exact bytes := exact_list exact_u8

/-! ## Records and trees -/

theorem exact_identity : Exact identity :=
  exact_via (exact_pair exact_u16 (exact_pair exact_text exact_text)) fun _ => rfl

theorem exact_failureReport : Exact failureReport :=
  exact_via (exact_pair exact_u32 (exact_pair (exact_oneOf (by decide)) exact_text)) fun _ => rfl

theorem exact_account : Exact account :=
  exact_via (exact_pair exact_u64 exact_text) fun _ => rfl

theorem exact_ledger : Exact ledger :=
  exact_via (exact_pair exact_u64 (exact_list exact_i64)) fun _ => rfl

theorem exact_bytePair : Exact bytePair :=
  exact_via (exact_pair exact_u8 exact_u8) fun _ => rfl

theorem exact_nodeBelow (height : Nat) : Exact (nodeBelow height) := by
  induction height with
  | zero =>
    intro bytes n rest h
    cases h
  | succ height ih =>
    rw [nodeBelow_succ]
    exact exact_via (exact_pair exact_text (exact_pair (exact_option exact_text)
      (exact_list ih))) fun _ => rfl

theorem exact_node : Exact node := fun bytes n rest h =>
  exact_nodeBelow (bytes.length + 1) bytes n rest h

/-! ## Maps -/

/-- What one format reads as a value, another one reads as what this stands for. -/
def ReadsAs (f : Format α) (g : Format β) (back : β → α) : Prop :=
  ∀ bytes a rest, f.read bytes = .ok (a, rest) → ∃ b, g.read bytes = .ok (b, rest) ∧ back b = a

theorem ReadsAs.refl (f : Format α) : f.ReadsAs f id := fun _ a _ h => ⟨a, h, rfl⟩

theorem ReadsAs.via {f : Format α} {g : Format β} {back : β → α} (h : f.ReadsAs g back)
    (out : γ → α) (back' : α → γ) : (f.via out back').ReadsAs g (back' ∘ back) := by
  intro bytes c rest hread
  obtain ⟨⟨a, rest⟩, hfirst, htaken⟩ := bind_eq_ok hread
  cases htaken
  obtain ⟨b, hb, rfl⟩ := h bytes a rest hfirst
  exact ⟨b, hb, rfl⟩

theorem ReadsAs.pair {f : Format α} {g : Format β} {f' : Format γ} {g' : Format δ}
    {back : γ → α} {back' : δ → β} (hf : f.ReadsAs f' back) (hg : g.ReadsAs g' back') :
    (f.pair g).ReadsAs (f'.pair g') (Prod.map back back') := by
  intro bytes p rest hread
  obtain ⟨⟨a, middle⟩, hfirst, hread⟩ := bind_eq_ok hread
  obtain ⟨⟨b, rest⟩, hsecond, htaken⟩ := bind_eq_ok hread
  cases htaken
  obtain ⟨c, hc, rfl⟩ := hf bytes a middle hfirst
  obtain ⟨d, hd, rfl⟩ := hg middle b rest hsecond
  exact ⟨(c, d), by simp only [Format.pair, hc, hd, bind, Except.bind], rfl⟩

/-- A map is read from a list of its entries, of which the later ones count. -/
theorem dict_readsAs [Ord α] [Std.TransOrd α] [Std.LawfulEqOrd α] (key : Format α)
    (value : Format β) : (dict key value).ReadsAs (list (key.pair value)) Dict.ofList :=
  (ReadsAs.refl _).via _ _

theorem headers_readsAs : headers.ReadsAs headerEntries Dict.ofList := dict_readsAs text text

theorem exact_headerEntries : Exact headerEntries := exact_list (exact_pair exact_text exact_text)

theorem exact_callFields : Exact (callFields headerEntries) :=
  exact_pair exact_u32 (exact_pair exact_u32 (exact_pair exact_text (exact_pair exact_text
    (exact_pair exact_headerEntries (exact_pair exact_headerEntries exact_bytes)))))

theorem exact_replyFields : Exact (replyFields headerEntries) :=
  exact_pair exact_u32 (exact_pair (exact_oneOf (by decide)) (exact_pair exact_headerEntries
    (exact_pair exact_headerEntries exact_bytes)))

theorem call_accepted {bytes rest : Bytes} {c : Call} (h : call.read bytes = .ok (c, rest)) :
    ∃ hs ths, Dict.ofList hs = c.headers ∧ Dict.ofList ths = c.transportHeaders ∧
      bytes = (callFields headerEntries).write
        (c.id, c.ttlMs, c.service, c.endpoint, hs, ths, c.body) ++ rest := by
  have hreads := (ReadsAs.refl u32).pair ((ReadsAs.refl u32).pair ((ReadsAs.refl text).pair
    ((ReadsAs.refl text).pair (headers_readsAs.pair (headers_readsAs.pair
      (ReadsAs.refl Format.bytes))))))
  obtain ⟨⟨id, ttlMs, service, endpoint, hs, ths, body⟩, hfields, rfl⟩ :=
    hreads.via _ _ bytes c rest h
  exact ⟨hs, ths, rfl, rfl, exact_callFields bytes _ rest hfields⟩

theorem reply_accepted {bytes rest : Bytes} {r : Reply} (h : reply.read bytes = .ok (r, rest)) :
    ∃ hs ths, Dict.ofList hs = r.headers ∧ Dict.ofList ths = r.transportHeaders ∧
      bytes = (replyFields headerEntries).write (r.id, r.code, hs, ths, r.body) ++ rest := by
  have hreads := (ReadsAs.refl u32).pair ((ReadsAs.refl replyCode).pair (headers_readsAs.pair
    (headers_readsAs.pair (ReadsAs.refl Format.bytes))))
  obtain ⟨⟨id, code, hs, ths, body⟩, hfields, rfl⟩ := hreads.via _ _ bytes r rest h
  exact ⟨hs, ths, rfl, rfl, exact_replyFields bytes _ rest hfields⟩

theorem map_eq_ok {x : Except Fault α} {g : α → β} {b : β} (h : x.map g = .ok b) :
    ∃ a, x = .ok a ∧ g a = b := by
  cases x with
  | error fault => cases h
  | ok a => exact ⟨a, rfl, Except.ok.inj h⟩

/-- **What is read as a frame is a form of it.** -/
theorem frame_accepted {bytes rest : Bytes} {f : Frame} (h : frame.read bytes = .ok (f, rest)) :
    ∃ form, FrameForm .laterCounts f form ∧ bytes = form ++ rest := by
  obtain ⟨⟨kind, middle⟩, hkind, hread⟩ := bind_eq_ok h
  obtain rfl := exact_u32 bytes kind middle hkind
  dsimp only at hread
  split at hread
  · obtain ⟨⟨i, rest⟩, hcontent, htaken⟩ := map_eq_ok hread
    cases htaken
    refine ⟨_, rfl, ?_⟩
    rw [exact_identity middle i rest hcontent, ← List.append_assoc]
    rfl
  · obtain ⟨⟨i, rest⟩, hcontent, htaken⟩ := map_eq_ok hread
    cases htaken
    refine ⟨_, rfl, ?_⟩
    rw [exact_identity middle i rest hcontent, ← List.append_assoc]
    rfl
  · obtain ⟨⟨c, rest⟩, hcontent, htaken⟩ := map_eq_ok hread
    cases htaken
    obtain ⟨hs, ths, hheaders, htransport, rfl⟩ := call_accepted hcontent
    exact ⟨_, ⟨hs, ths, hheaders, htransport, rfl⟩, by rw [List.append_assoc]⟩
  · obtain ⟨⟨r, rest⟩, hcontent, htaken⟩ := map_eq_ok hread
    cases htaken
    obtain ⟨hs, ths, hheaders, htransport, rfl⟩ := reply_accepted hcontent
    exact ⟨_, ⟨hs, ths, hheaders, htransport, rfl⟩, by rw [List.append_assoc]⟩
  · obtain ⟨⟨report, rest⟩, hcontent, htaken⟩ := map_eq_ok hread
    cases htaken
    refine ⟨_, rfl, ?_⟩
    rw [exact_failureReport middle report rest hcontent, ← List.append_assoc]
    rfl
  · cases hread

theorem dict_accepted [Ord α] [Std.TransOrd α] [Std.LawfulEqOrd α] {key : Format α}
    {value : Format β} (hkey : Exact key) (hvalue : Exact value) {bytes rest : Bytes}
    {d : Dict α β} (h : (dict key value).read bytes = .ok (d, rest)) :
    ∃ entries, Dict.ofList entries = d ∧
      bytes = (list (key.pair value)).write entries ++ rest := by
  obtain ⟨entries, hentries, rfl⟩ := dict_readsAs key value bytes d rest h
  exact ⟨entries, rfl, exact_list (exact_pair hkey hvalue) bytes entries rest hentries⟩

/-! ## Bodies -/

/-- **What is read as a body is a form of it.** -/
theorem body_accepted (k : Body.Kind) {bytes rest : Bytes} {v : k.Value}
    (h : k.binary.read bytes = .ok (v, rest)) :
    ∃ form, BodyForm .laterCounts k v form ∧ bytes = form ++ rest := by
  cases k with
  | map =>
    obtain ⟨entries, hentries, hbytes⟩ := dict_accepted exact_text exact_i64 h
    exact ⟨_, ⟨entries, hentries, rfl⟩, hbytes⟩
  | pairMap =>
    obtain ⟨entries, hentries, hbytes⟩ := dict_accepted exact_bytePair exact_u8 h
    exact ⟨_, ⟨entries, hentries, rfl⟩, hbytes⟩
  | frame => exact frame_accepted h
  | unit => exact ⟨_, rfl, exact_unit bytes v rest h⟩
  | bool => exact ⟨_, rfl, exact_bool bytes v rest h⟩
  | u8 => exact ⟨_, rfl, exact_u8 bytes v rest h⟩
  | u16 => exact ⟨_, rfl, exact_u16 bytes v rest h⟩
  | u32 => exact ⟨_, rfl, exact_u32 bytes v rest h⟩
  | u64 => exact ⟨_, rfl, exact_u64 bytes v rest h⟩
  | i64 => exact ⟨_, rfl, exact_i64 bytes v rest h⟩
  | text => exact ⟨_, rfl, exact_text bytes v rest h⟩
  | optionalText => exact ⟨_, rfl, exact_option exact_text bytes v rest h⟩
  | bytes => exact ⟨_, rfl, exact_bytes bytes v rest h⟩
  | account => exact ⟨_, rfl, exact_account bytes v rest h⟩
  | ledger => exact ⟨_, rfl, exact_ledger bytes v rest h⟩
  | node => exact ⟨_, rfl, exact_node bytes v rest h⟩
  | scheme => exact ⟨_, rfl, exact_oneOf (by decide) bytes v rest h⟩
  | direction => exact ⟨_, rfl, exact_oneOf (by decide) bytes v rest h⟩
  | errorKind => exact ⟨_, rfl, exact_oneOf (by decide) bytes v rest h⟩
  | replyCode => exact ⟨_, rfl, exact_oneOf (by decide) bytes v rest h⟩

/-! ## Lengths that are not there -/

/-- A text that should be longer than what is left is refused. -/
theorem text_overstated {n : Nat} (fits : n < UInt64.size) {left : Bytes} (less : left.length < n) :
    ∃ fault, text.read (count.write n ++ left) = .error fault := by
  cases hsplit : Bytes.splitExact n left with
  | none => exact ⟨.shortText, by simp only [text, count_read fits, hsplit, bind, Except.bind]⟩
  | some parts =>
    obtain ⟨rfl, hlength⟩ := Bytes.splitExact_eq_some hsplit
    rw [List.length_append] at less
    omega

/-- So is a list of more items than there are bytes left, when every item takes
some. -/
theorem list_overstated {f : Format α} (h : Exact f) (room : ∀ a, 1 ≤ (f.write a).length) {n : Nat}
    (fits : n < UInt64.size) {left : Bytes} (less : left.length < n) :
    ∃ fault, f.list.read (count.write n ++ left) = .error fault := by
  simp only [list, count_read fits, bind, Except.bind]
  cases hread : readMany f.read n [] left with
  | error fault => exact ⟨fault, rfl⟩
  | ok taken =>
    obtain ⟨more, -, rfl, rfl⟩ := exact_readMany h hread
    have hroom : more.length ≤ (more.flatMap f.write).length := length_le_flatMap room
    rw [List.length_append] at less
    omega

example : ∃ fault, bytes.read (count.write (2 ^ 64 - 1) ++ [1]) = .error fault :=
  list_overstated exact_u8 (fun _ => Nat.le_refl 1) (by decide) (by decide)

/-! ## How deep a reader goes -/

/-- Readers that agree on short bytes find the same values one after another. -/
theorem readMany_congr {f : Format α} (h : Exact f) {read : Reader α} {most : Nat}
    (same : ∀ bytes, bytes.length ≤ most → f.read bytes = read bytes) (n : Nat) (seen : List α)
    {bytes : Bytes} (short : bytes.length ≤ most) :
    readMany f.read n seen bytes = readMany read n seen bytes := by
  induction n generalizing seen bytes with
  | zero => rfl
  | succ n ih =>
    rw [readMany, readMany, ← same bytes short]
    cases hfirst : f.read bytes with
    | error fault => rfl
    | ok taken =>
      obtain ⟨a, rest⟩ := taken
      have hlength := congrArg List.length (h bytes a rest hfirst)
      rw [List.length_append] at hlength
      exact ih (a :: seen) (by omega)

/-- A reader of trees that may go deeper than the bytes are long never has to. -/
theorem readNode_enough {height height' : Nat} {bytes : Bytes} (h : bytes.length < height)
    (h' : bytes.length < height') : readNode height bytes = readNode height' bytes := by
  induction height generalizing height' bytes with
  | zero => exact absurd h (Nat.not_lt_zero _)
  | succ height ih =>
    obtain ⟨height', rfl⟩ : ∃ n, height' = n + 1 := ⟨height' - 1, by omega⟩
    rw [readNode, readNode]
    cases hname : text.read bytes with
    | error fault => rfl
    | ok taken =>
      obtain ⟨name, rest⟩ := taken
      cases hnote : (option text).read rest with
      | error fault => simp only [hnote, bind, Except.bind]
      | ok taken =>
        obtain ⟨note, rest'⟩ := taken
        cases hcount : count.read rest' with
        | error fault => simp only [hnote, hcount, bind, Except.bind]
        | ok taken =>
          obtain ⟨n, below⟩ := taken
          -- The name alone takes some bytes, so those of the trees below are fewer.
          have hbytes := congrArg List.length (exact_text bytes name rest hname)
          have hrest := congrArg List.length (exact_option exact_text rest note rest' hnote)
          have hrest' := congrArg List.length (exact_number 8 rest' n below hcount)
          have hroom := room_text name
          rw [List.length_append] at hbytes hrest hrest'
          have hbelow : readMany (readNode height) n [] below =
              readMany (readNode height') n [] below :=
            readMany_congr (exact_nodeBelow height)
              (fun bytes (hshort : bytes.length ≤ below.length) => ih (by omega) (by omega)) n []
              (Nat.le_refl _)
          simp only [hnote, hcount, hbelow, bind, Except.bind]

end Binary.Format

/-- Whether the values of a kind have maps in them. -/
def Body.Kind.hasMaps : Body.Kind → Bool
  | .map | .pairMap | .frame => true
  | _ => false

namespace Codec

open Binary Binary.Format

theorem form_of_mapless {k : Body.Kind} (mapless : k.hasMaps = false) {rule : Arrangement}
    {v : k.Value} {form : Bytes} (h : BodyForm rule k v form) : form = k.binary.write v := by
  cases k <;> first | exact h | cases mapless

theorem decode_eq_ok {k : Body.Kind} {bytes : Bytes} {v : k.Value} :
    binary.decode k bytes = .ok v ↔ ∃ rest, k.binary.read bytes = .ok (v, rest) := by
  rw [decode]
  cases hread : k.binary.read bytes with
  | error fault => simp
  | ok taken =>
    obtain ⟨v', rest⟩ := taken
    simp [eq_comm]

/-- **Only encodings are decoded.** What is decoded from bytes has a form at
their front, and a form at the front is decoded as what it is a form of: of the
entries of a map, which may come in any order and repeat keys, the later ones
count. Where there are no maps the form is the encoding, and whatever was read
as one value was the same bytes. Bytes with no form at their front are refused
as malformed. Finally, a tree is not found by giving up early: readers that may
go deeper than the bytes are long all agree with the one in use. -/
theorem binary_takes_only_encodings (k : Body.Kind) (bytes : Bytes) :
    (∀ v, binary.decode k bytes = .ok v →
      ∃ form, BodyForm .laterCounts k v form ∧ form <+: bytes ∧
        (k.hasMaps = false → binary.encode k v = .ok form)) ∧
    (∀ v form, BodyForm .laterCounts k v form → form.length < UInt64.size → form <+: bytes →
      binary.decode k bytes = .ok v) ∧
    (k.hasMaps = false → ∀ v rest other rest', k.binary.read bytes = .ok (v, rest) →
      k.binary.read other = .ok (v, rest') →
      ∃ front, bytes = front ++ rest ∧ other = front ++ rest') ∧
    ((¬ ∃ v form, BodyForm .laterCounts k v form ∧ form <+: bytes) →
      ∃ fault, binary.decode k bytes = .error (.binary fault)) ∧
    ∀ height, bytes.length < height → readNode height bytes = node.read bytes := by
  refine ⟨fun v h => ?_, fun v form hform fits hfront => ?_, fun mapless v rest other rest' h h' =>
    ?_, fun hnone => ?_, fun height h => ?_⟩
  · obtain ⟨rest, hread⟩ := decode_eq_ok.1 h
    obtain ⟨form, hform, rfl⟩ := body_accepted k hread
    exact ⟨form, hform, List.prefix_append form rest, fun mapless => by
      rw [form_of_mapless mapless hform, encode]⟩
  · obtain ⟨rest, rfl⟩ := hfront
    exact decode_eq_ok.2 ⟨rest, body_reads hform fits rest⟩
  · obtain ⟨form, hform, rfl⟩ := body_accepted k h
    obtain ⟨form', hform', rfl⟩ := body_accepted k h'
    rw [form_of_mapless mapless hform, form_of_mapless mapless hform']
    exact ⟨_, rfl, rfl⟩
  · cases hread : k.binary.read bytes with
    | error fault => exact ⟨fault, by simp only [decode, hread]⟩
    | ok taken =>
      obtain ⟨form, hform, hbytes⟩ := body_accepted k hread
      exact absurd ⟨taken.1, form, hform, hbytes ▸ List.prefix_append form taken.2⟩ hnone
  · exact readNode_enough h (Nat.lt_succ_self _)

/-- A map with one key twice, a choice that is none, and a tree with nothing in
it. -/
theorem binary_takes_repeated_keys :
    let v : Dict String Int64 := .ofList [("a", 2)]
    let form := (list (text.pair i64)).write [("a", 1), ("a", 2)]
    (BodyForm .laterCounts .map v form ∧ form.length < UInt64.size ∧ form <+: form ++ [7] ∧
      binary.decode .map (form ++ [7]) = .ok v) ∧
    (Body.Kind.bool.hasMaps = false ∧ binary.decode .bool [1, 7] = .ok true ∧
      ∃ form, form <+: [1, 7] ∧ binary.encode .bool true = .ok form) ∧
    (Format.bool.read [1, 7] = .ok (true, [7]) ∧ Format.bool.read [1] = .ok (true, []) ∧
      ∃ front : Bytes, [1, 7] = front ++ [7] ∧ [1] = front ++ []) ∧
    ((¬ ∃ v form, BodyForm .laterCounts .bool v form ∧ form <+: [2]) ∧
      ∃ fault, binary.decode .bool [2] = .error (.binary fault)) ∧
    ([] : Bytes).length < 5 ∧ readNode 5 [] = node.read [] := by
  intro v form
  have hform : BodyForm .laterCounts .map v form :=
    ⟨_, show Dict.ofList _ = Dict.ofList _ by decide, rfl⟩
  have fits : form.length < UInt64.size := by decide
  have hfront : form <+: form ++ [7] := List.prefix_append form [7]
  have hdecode : binary.decode .bool [1, 7] = .ok true := rfl
  have hread : Format.bool.read [1, 7] = .ok (true, [7]) := rfl
  have hread' : Format.bool.read [1] = .ok (true, []) := rfl
  have hnone : ¬ ∃ v form, BodyForm .laterCounts .bool v form ∧ form <+: [2] := by
    rintro ⟨v, form, rfl, hfront⟩
    revert hfront
    cases v <;> decide
  obtain ⟨htaken, -, hsame, -, -⟩ := binary_takes_only_encodings .bool [1, 7]
  obtain ⟨encoded, -, hencoded, hencode⟩ := htaken true hdecode
  exact ⟨⟨hform, fits, hfront,
      (binary_takes_only_encodings .map (form ++ [7])).2.1 v form hform fits hfront⟩,
    ⟨rfl, hdecode, encoded, hencoded, hencode rfl⟩,
    ⟨hread, hread', hsame rfl true [7] [1] [] hread hread'⟩,
    ⟨hnone, (binary_takes_only_encodings .bool [2]).2.2.2.1 hnone⟩,
    by decide, (binary_takes_only_encodings .unit []).2.2.2.2 5 (by decide)⟩

example :
    binary.decode .optionalText [2] = .error (.binary (.badOption 2)) ∧
    binary.decode .scheme [3, 0, 0, 0] = .error (.binary (.badChoice 3 3)) ∧
    binary.decode .frame [5, 0, 0, 0] = .error (.binary (.badChoice 5 5)) ∧
    binary.decode .u16 [1] = .error (.binary .endOfInput) ∧
    ∃ fault, binary.decode .text [1, 0, 0, 0, 0, 0, 0, 0, 0xff] =
      .error (.binary (.badText fault)) :=
  ⟨rfl, rfl, rfl, rfl, _, rfl⟩

end Codec

end RpcClient
