/-
What is written in the binary format is read back, and what follows it is left
alone (`Reads`): first for the parts that formats are put together from, then
for frames, whose headers may be written in any order (`frame_reads`).

Lengths are written in eight bytes, so all this is said of written forms whose
length fits there.
-/
import Mathlib.Algebra.Group.Nat.Defs
import RpcClient.Body.Arrangement
import RpcClient.Proofs.Dict
import RpcClient.Proofs.Text.Utf8

namespace RpcClient

/-- Entries that may stand for a map make it. -/
theorem Arrangement.Allows.ofList_eq {κ α : Type} [Ord κ] [Std.TransOrd κ] [Std.LawfulEqOrd κ]
    {rule : Arrangement} {entries : List (κ × α)} {d : Dict κ α} (h : rule.Allows entries d) :
    Dict.ofList entries = d := by
  cases rule with
  | anyOrder => exact Dict.ofList_perm h
  | laterCounts => exact h

/-! ## Bytes -/

namespace Bytes

theorem length_little (width n : Nat) : (little width n).length = width := by
  induction width generalizing n with
  | zero => rfl
  | succ width ih => simp [little, ih]

theorem ofLittle_little (width n : Nat) : ofLittle (little width n) = n % 256 ^ width := by
  induction width generalizing n with
  | zero => simp [little, ofLittle, Nat.mod_one]
  | succ width ih =>
    have lowest : (UInt8.ofNat n).toNat = n % 256 := by simp
    simp only [little, ofLittle, ih, lowest]
    rw [Nat.pow_succ, Nat.mul_comm (256 ^ width) 256, Nat.mod_mul]

theorem little_ofLittle (bytes : Bytes) : little bytes.length (ofLittle bytes) = bytes := by
  induction bytes with
  | nil => rfl
  | cons b bytes ih =>
    have hlow : b.toNat < 256 := UInt8.toNat_lt b
    have hfirst : UInt8.ofNat (b.toNat + 256 * ofLittle bytes) = b := by
      rw [UInt8.ofNat_add, UInt8.ofNat_mul, UInt8.ofNat_toNat]
      simp
    have hrest : (b.toNat + 256 * ofLittle bytes) / 256 = ofLittle bytes := by omega
    rw [List.length_cons, ofLittle, little, hfirst, hrest, ih]

/-- A number that is written as wide as it was is written as it was. -/
theorem big_ofBig (bytes : Bytes) : big bytes.length (ofBig bytes) = bytes := by
  have hreverse := little_ofLittle bytes.reverse
  rw [List.length_reverse] at hreverse
  rw [big, ofBig, hreverse, List.reverse_reverse]

theorem splitExact_append (front rest : Bytes) :
    splitExact front.length (front ++ rest) = some (front, rest) := by
  suffices h : ∀ seen, splitExact.go front.length seen (front ++ rest) =
      some (seen.reverse ++ front, rest) by
    simpa [splitExact] using h []
  induction front with
  | nil => intro seen; simp [splitExact.go]
  | cons b front ih => intro seen; simp [splitExact.go, ih]

end Bytes

namespace Binary.Format

variable {α β : Type}

/-- A written form is read as a value, and nothing behind it is touched. -/
def Reads (f : Format α) (a : α) (form : Bytes) : Prop :=
  form.length < UInt64.size → ∀ rest, f.read (form ++ rest) = .ok (a, rest)

/-! ## Numbers -/

theorem readNumber_little (width : Nat) {n : Nat} (h : n < 256 ^ width) (rest : Bytes) :
    readNumber width (Bytes.little width n ++ rest) = .ok (n, rest) := by
  have hsplit := Bytes.splitExact_append (Bytes.little width n) rest
  rw [Bytes.length_little] at hsplit
  simp only [readNumber, hsplit, Bytes.ofLittle_little, Nat.mod_eq_of_lt h]

theorem number_reads (width : Nat) {n : Nat} (h : n < 256 ^ width) :
    (number width).Reads n ((number width).write n) := fun _ rest => readNumber_little width h rest

theorem Reads.via {f : Format α} {a : α} {form : Bytes} (h : f.Reads a form) (out : β → α)
    (back : α → β) : (f.via out back).Reads (back a) form := by
  intro hlength rest
  simp only [Format.via, h hlength rest, bind, Except.bind]

theorem Reads.viaChecked {f : Format α} {a : α} {form : Bytes} (h : f.Reads a form) (out : β → α)
    {back : α → Except Fault β} {b : β} (hback : back a = .ok b) :
    (f.viaChecked out back).Reads b form := by
  intro hlength rest
  simp only [Format.viaChecked, h hlength rest, hback, bind, Except.bind]

theorem u8_reads (x : UInt8) : u8.Reads x (u8.write x) := by
  have h := (number_reads 1 x.toNat_lt).via UInt8.toNat UInt8.ofNat
  rw [UInt8.ofNat_toNat] at h
  exact h

theorem u16_reads (x : UInt16) : u16.Reads x (u16.write x) := by
  have h := (number_reads 2 x.toNat_lt).via UInt16.toNat UInt16.ofNat
  rw [UInt16.ofNat_toNat] at h
  exact h

theorem u32_reads (x : UInt32) : u32.Reads x (u32.write x) := by
  have h := (number_reads 4 x.toNat_lt).via UInt32.toNat UInt32.ofNat
  rw [UInt32.ofNat_toNat] at h
  exact h

theorem count_read {n : Nat} (h : n < UInt64.size) (rest : Bytes) :
    count.read (count.write n ++ rest) = .ok (n, rest) := readNumber_little 8 h rest

/-- A value of a list stands for its place there. -/
theorem oneOf_reads [DecidableEq α] {choices : List α} (few : choices.length < UInt32.size) {a : α}
    (h : a ∈ choices) : (oneOf choices).Reads a ((oneOf choices).write a) := by
  have hplace : choices.idxOf a < choices.length := List.idxOf_lt_length_of_mem h
  refine (u32_reads _).viaChecked _ ?_
  have hnat : (UInt32.ofNat (choices.idxOf a)).toNat = choices.idxOf a :=
    UInt32.toNat_ofNat_of_lt' (Nat.lt_trans hplace few)
  simp only [hnat, List.getElem?_eq_getElem hplace, List.getElem_idxOf]

/-! ## Text, pairs, lists and maps -/

theorem text_reads (s : String) : text.Reads s (text.write s) := by
  intro hlength rest
  have hbytes : (Utf8.encode s).length < UInt64.size := by
    simp only [text, List.length_append] at hlength
    omega
  simp only [text, List.append_assoc, count_read hbytes, bind, Except.bind,
    Bytes.splitExact_append, Utf8.decode_encode]

theorem Reads.pair {f : Format α} {g : Format β} {a : α} {b : β} {form form' : Bytes}
    (hf : f.Reads a form) (hg : g.Reads b form') : (f.pair g).Reads (a, b) (form ++ form') := by
  intro hlength rest
  rw [List.length_append] at hlength
  have hfirst := hf (by omega) (form' ++ rest)
  have hsecond := hg (by omega) rest
  simp only [Format.pair, List.append_assoc, hfirst, hsecond, bind, Except.bind]

theorem readMany_write {f : Format α} {as : List α} (h : ∀ a ∈ as, f.Reads a (f.write a))
    (hlength : (as.flatMap f.write).length < UInt64.size) (seen : List α) (rest : Bytes) :
    readMany f.read as.length seen (as.flatMap f.write ++ rest) =
      .ok (seen.reverse ++ as, rest) := by
  induction as generalizing seen with
  | nil => simp [readMany]
  | cons a as ih =>
    rw [List.flatMap_cons, List.length_append] at hlength
    have hfirst := h a List.mem_cons_self (by omega) (as.flatMap f.write ++ rest)
    have hrest := ih (fun b hb => h b (List.mem_cons_of_mem _ hb)) (by omega) (a :: seen)
    simp only [List.length_cons, List.flatMap_cons, List.append_assoc, readMany, hfirst, hrest,
      List.reverse_cons, List.append_assoc, List.singleton_append]

/-- Every item takes some room, so their number fits too. -/
theorem list_reads {f : Format α} {as : List α} (h : ∀ a ∈ as, f.Reads a (f.write a))
    (room : as.length ≤ (as.flatMap f.write).length) : f.list.Reads as (f.list.write as) := by
  intro hlength rest
  simp only [list, List.length_append] at hlength
  have hcount := count_read (n := as.length) (by omega) (as.flatMap f.write ++ rest)
  have hitems := readMany_write h (by omega) [] rest
  simp only [list, List.append_assoc, hcount, hitems, bind, Except.bind, List.reverse_nil,
    List.nil_append]

theorem length_le_flatMap {as : List α} {write : α → Bytes} (h : ∀ a, 1 ≤ (write a).length) :
    as.length ≤ (as.flatMap write).length := by
  induction as with
  | nil => exact Nat.le_refl 0
  | cons a as ih =>
    have hfirst := h a
    rw [List.flatMap_cons, List.length_append, List.length_cons]
    omega

theorem bytes_reads (b : Bytes) : bytes.Reads b (bytes.write b) :=
  list_reads (fun x _ => u8_reads x) (length_le_flatMap fun _ => Nat.le_refl 1)

theorem length_text (s : String) : (text.write s).length = 8 + (Utf8.encode s).length := by
  simp only [text, count, number, List.length_append, Bytes.length_little]

theorem room_pair {f : Format α} (h : ∀ a, 1 ≤ (f.write a).length) (g : Format β) (e : α × β) :
    1 ≤ ((f.pair g).write e).length := by
  have hfirst := h e.1
  rw [pair, List.length_append]
  omega

theorem room_text (s : String) : 1 ≤ (text.write s).length := by
  rw [length_text]
  omega

/-- The entries of a map may come in any order, or with others that they make
void. -/
theorem dict_reads [Ord α] [Std.TransOrd α] [Std.LawfulEqOrd α] {key : Format α}
    {value : Format β} (hkey : ∀ a, key.Reads a (key.write a))
    (hvalue : ∀ b, value.Reads b (value.write b)) (room : ∀ a, 1 ≤ (key.write a).length)
    {rule : Arrangement} {entries : List (α × β)} {d : Dict α β} (h : rule.Allows entries d) :
    (dict key value).Reads d ((list (key.pair value)).write entries) := by
  have hentry : ∀ e ∈ entries, (key.pair value).Reads e ((key.pair value).write e) := fun e _ =>
    (hkey e.1).pair (hvalue e.2)
  have hmap := (list_reads hentry (length_le_flatMap (room_pair room value))).via
    Dict.entries Dict.ofList
  rw [h.ofList_eq] at hmap
  exact hmap

theorem headers_reads {rule : Arrangement} {entries : List (String × String)} {d : Headers}
    (h : rule.Allows entries d) : headers.Reads d (headerEntries.write entries) :=
  dict_reads text_reads text_reads room_text h

/-! ## Frames -/

theorem identity_reads (i : Identity) : identity.Reads i (identity.write i) :=
  ((u16_reads i.version).pair ((text_reads i.hostPort).pair (text_reads i.processName))).via _ _

theorem failureReport_reads (f : FailureReport) :
    failureReport.Reads f (failureReport.write f) := by
  have hkind : f.kind ∈ ErrorKind.all := by cases f.kind <;> decide
  exact ((u32_reads f.id).pair ((oneOf_reads (by decide) hkind).pair (text_reads f.message))).via
    _ _

theorem call_reads {rule : Arrangement} {c : Call} {hs ths : List (String × String)}
    (h : rule.Allows hs c.headers) (ht : rule.Allows ths c.transportHeaders) :
    call.Reads c ((callFields headerEntries).write
      (c.id, c.ttlMs, c.service, c.endpoint, hs, ths, c.body)) :=
  ((u32_reads c.id).pair ((u32_reads c.ttlMs).pair ((text_reads c.service).pair
    ((text_reads c.endpoint).pair ((headers_reads h).pair ((headers_reads ht).pair
      (bytes_reads c.body))))))).via _ _

theorem reply_reads {rule : Arrangement} {r : Reply} {hs ths : List (String × String)}
    (h : rule.Allows hs r.headers) (ht : rule.Allows ths r.transportHeaders) :
    reply.Reads r ((replyFields headerEntries).write (r.id, r.code, hs, ths, r.body)) := by
  have hcode : r.code ∈ ReplyCode.all := by cases r.code <;> decide
  exact ((u32_reads r.id).pair ((oneOf_reads (by decide) hcode).pair ((headers_reads h).pair
    ((headers_reads ht).pair (bytes_reads r.body))))).via _ _

theorem kind_read (kind : UInt32) (content rest : Bytes) :
    u32.read (u32.write kind ++ content ++ rest) = .ok (kind, content ++ rest) := by
  have hlength : (u32.write kind).length = 4 := Bytes.length_little 4 _
  have hfits : (u32.write kind).length < UInt64.size := by
    rw [hlength]
    decide
  rw [List.append_assoc]
  exact u32_reads kind hfits (content ++ rest)

/-- **A frame reads back from each of its written forms.** -/
theorem frame_reads {rule : Arrangement} {f : Frame} {form : Bytes} (h : FrameForm rule f form) :
    frame.Reads f form := by
  intro hlength rest
  cases f with
  | initRequest i =>
    obtain rfl : form = u32.write 0 ++ identity.write i := h
    rw [List.length_append] at hlength
    have hcontent := identity_reads i (by omega) rest
    simp only [frame, kind_read, hcontent, bind, Except.bind, Except.map]
  | initResponse i =>
    obtain rfl : form = u32.write 1 ++ identity.write i := h
    rw [List.length_append] at hlength
    have hcontent := identity_reads i (by omega) rest
    simp only [frame, kind_read, hcontent, bind, Except.bind, Except.map]
  | callRequest c =>
    obtain ⟨hs, ths, hheaders, htransport, rfl⟩ := h
    rw [List.length_append] at hlength
    have hcontent := call_reads hheaders htransport (by omega) rest
    simp only [frame, kind_read, hcontent, bind, Except.bind, Except.map]
  | callResponse r =>
    obtain ⟨hs, ths, hheaders, htransport, rfl⟩ := h
    rw [List.length_append] at hlength
    have hcontent := reply_reads hheaders htransport (by omega) rest
    simp only [frame, kind_read, hcontent, bind, Except.bind, Except.map]
  | error f =>
    obtain rfl : form = u32.write 4 ++ failureReport.write f := h
    rw [List.length_append] at hlength
    have hcontent := failureReport_reads f (by omega) rest
    simp only [frame, kind_read, hcontent, bind, Except.bind, Except.map]

/-- What the client itself writes of a frame is one of its forms. -/
theorem frameForm_write (f : Frame) : FrameForm .anyOrder f (frame.write f) := by
  cases f with
  | callRequest c => exact ⟨_, _, .refl _, .refl _, rfl⟩
  | callResponse r => exact ⟨_, _, .refl _, .refl _, rfl⟩
  | initRequest i => rfl
  | initResponse i => rfl
  | error f => rfl

end Binary.Format

end RpcClient
