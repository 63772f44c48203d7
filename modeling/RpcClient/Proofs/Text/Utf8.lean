/-
Text that was written as bytes is read back (`decode_encode`), and nothing else
is read as it (`encode_decode`): one lemma for each length that a character can
have, then over the characters.
-/
import RpcClient.Text.Utf8

namespace RpcClient.Utf8

/-! ## Bytes by their values -/

theorem toNat_byte {n : Nat} (h : n < 256) : (UInt8.ofNat n).toNat = n := by
  simp [Nat.mod_eq_of_lt h]

theorem byte_lt {n : Nat} (h : n < 256) (b : UInt8) : UInt8.ofNat n < b ↔ n < b.toNat := by
  rw [UInt8.lt_iff_toNat_lt, toNat_byte h]

theorem byte_le {n : Nat} (h : n < 256) (b : UInt8) : UInt8.ofNat n ≤ b ↔ n ≤ b.toNat := by
  rw [UInt8.le_iff_toNat_le, toNat_byte h]

theorem le_byte {n : Nat} (h : n < 256) (b : UInt8) : b ≤ UInt8.ofNat n ↔ b.toNat ≤ n := by
  rw [UInt8.le_iff_toNat_le, toNat_byte h]

theorem byte_eq {n : Nat} (h : n < 256) (b : UInt8) : UInt8.ofNat n = b ↔ n = b.toNat := by
  rw [← UInt8.toNat_inj, toNat_byte h]

/-- A byte inside a character carries six bits. -/
theorem isContinuation_byte (n : Nat) : isContinuation (UInt8.ofNat (n % 64 + 128)) = true := by
  have hlt : n % 64 + 128 < 256 := by omega
  simp only [isContinuation, Bool.and_eq_true, decide_eq_true_eq, byte_le hlt, le_byte hlt]
  constructor
  · show 128 ≤ n % 64 + 128
    omega
  · show n % 64 + 128 ≤ 191
    omega

theorem tail_byte (n : Nat) : tail (UInt8.ofNat (n % 64 + 128)) = n % 64 := by
  have hlt : n % 64 + 128 < 256 := by omega
  simp only [tail, toNat_byte hlt]
  omega

/-! ## One character -/

variable (valid : Nat) (seen : List Char) (rest : Bytes) {v : Nat}

theorem decodeFrom_one (high : v < 128) :
    decodeFrom valid seen (UInt8.ofNat v :: rest) =
      decodeFrom (valid + 1) (Char.ofNat v :: seen) rest := by
  have hlt : v < 256 := by omega
  have hone : UInt8.ofNat v < 0x80 := (byte_lt hlt _).2 high
  rw [decodeFrom.eq_def]
  simp only [hone, if_true, toNat_byte hlt]

theorem decodeFrom_two (low : 128 ≤ v) (high : v < 2048) :
    decodeFrom valid seen (UInt8.ofNat (v / 64 % 32 + 192) :: UInt8.ofNat (v % 64 + 128) :: rest) =
      decodeFrom (valid + 2) (Char.ofNat v :: seen) rest := by
  have hlt : v / 64 % 32 + 192 < 256 := by omega
  have hone : ¬ UInt8.ofNat (v / 64 % 32 + 192) < 0x80 := by
    rw [byte_lt hlt]
    show ¬ _ < 128
    omega
  have htwo : (0xC2 ≤ UInt8.ofNat (v / 64 % 32 + 192) &&
      UInt8.ofNat (v / 64 % 32 + 192) ≤ 0xDF) = true := by
    simp only [Bool.and_eq_true, decide_eq_true_eq, byte_le hlt, le_byte hlt]
    exact ⟨show 194 ≤ _ by omega, show _ ≤ 223 by omega⟩
  have hvalue : (v / 64 % 32 + 192) % 32 * 64 + v % 64 = v := by omega
  rw [decodeFrom.eq_def]
  simp only [hone, htwo, if_false, isContinuation_byte, if_true, tail_byte, toNat_byte hlt, hvalue]

theorem decodeFrom_three (low : 2048 ≤ v) (high : v < 65536) (scalar : v < 0xD800 ∨ 0xDFFF < v) :
    decodeFrom valid seen (UInt8.ofNat (v / 4096 % 16 + 224) :: UInt8.ofNat (v / 64 % 64 + 128) ::
        UInt8.ofNat (v % 64 + 128) :: rest) =
      decodeFrom (valid + 3) (Char.ofNat v :: seen) rest := by
  have hlt : v / 4096 % 16 + 224 < 256 := by omega
  have hlt₂ : v / 64 % 64 + 128 < 256 := by omega
  have hone : ¬ UInt8.ofNat (v / 4096 % 16 + 224) < 0x80 := by
    rw [byte_lt hlt]
    show ¬ _ < 128
    omega
  have htwo : ¬ (0xC2 ≤ UInt8.ofNat (v / 4096 % 16 + 224) &&
      UInt8.ofNat (v / 4096 % 16 + 224) ≤ 0xDF) = true := by
    simp only [Bool.and_eq_true, decide_eq_true_eq, byte_le hlt, le_byte hlt]
    rintro ⟨-, h⟩
    have h : v / 4096 % 16 + 224 ≤ 223 := h
    omega
  have hthree : (0xE0 ≤ UInt8.ofNat (v / 4096 % 16 + 224) &&
      UInt8.ofNat (v / 4096 % 16 + 224) ≤ 0xEF) = true := by
    simp only [Bool.and_eq_true, decide_eq_true_eq, byte_le hlt, le_byte hlt]
    exact ⟨show 224 ≤ _ by omega, show _ ≤ 239 by omega⟩
  have hsecond : secondOfThree (UInt8.ofNat (v / 4096 % 16 + 224))
      (UInt8.ofNat (v / 64 % 64 + 128)) = true := by
    unfold secondOfThree
    split
    · next heq =>
      have heq : v / 4096 % 16 + 224 = 224 := (byte_eq hlt _).1 heq
      simp only [Bool.and_eq_true, decide_eq_true_eq, byte_le hlt₂, le_byte hlt₂]
      exact ⟨show 160 ≤ _ by omega, show _ ≤ 191 by omega⟩
    · split
      · next heq =>
        have heq : v / 4096 % 16 + 224 = 237 := (byte_eq hlt _).1 heq
        simp only [Bool.and_eq_true, decide_eq_true_eq, byte_le hlt₂, le_byte hlt₂]
        exact ⟨show 128 ≤ _ by omega, show _ ≤ 159 by omega⟩
      · exact isContinuation_byte _
  have hvalue : (v / 4096 % 16 + 224) % 16 * 4096 + v / 64 % 64 * 64 + v % 64 = v := by omega
  rw [decodeFrom.eq_def]
  simp only [hone, htwo, hthree, if_false, Bool.false_eq_true, hsecond,
    isContinuation_byte, if_true, tail_byte, toNat_byte hlt, hvalue]

theorem decodeFrom_four (low : 65536 ≤ v) (high : v < 0x110000) :
    decodeFrom valid seen (UInt8.ofNat (v / 262144 % 8 + 240) ::
        UInt8.ofNat (v / 4096 % 64 + 128) :: UInt8.ofNat (v / 64 % 64 + 128) ::
        UInt8.ofNat (v % 64 + 128) :: rest) =
      decodeFrom (valid + 4) (Char.ofNat v :: seen) rest := by
  have hlt : v / 262144 % 8 + 240 < 256 := by omega
  have hlt₂ : v / 4096 % 64 + 128 < 256 := by omega
  have hone : ¬ UInt8.ofNat (v / 262144 % 8 + 240) < 0x80 := by
    rw [byte_lt hlt]
    show ¬ _ < 128
    omega
  have htwo : ¬ (0xC2 ≤ UInt8.ofNat (v / 262144 % 8 + 240) &&
      UInt8.ofNat (v / 262144 % 8 + 240) ≤ 0xDF) = true := by
    simp only [Bool.and_eq_true, decide_eq_true_eq, byte_le hlt, le_byte hlt]
    rintro ⟨-, h⟩
    have h : v / 262144 % 8 + 240 ≤ 223 := h
    omega
  have hthree : ¬ (0xE0 ≤ UInt8.ofNat (v / 262144 % 8 + 240) &&
      UInt8.ofNat (v / 262144 % 8 + 240) ≤ 0xEF) = true := by
    simp only [Bool.and_eq_true, decide_eq_true_eq, byte_le hlt, le_byte hlt]
    rintro ⟨-, h⟩
    have h : v / 262144 % 8 + 240 ≤ 239 := h
    omega
  have hfour : (0xF0 ≤ UInt8.ofNat (v / 262144 % 8 + 240) &&
      UInt8.ofNat (v / 262144 % 8 + 240) ≤ 0xF4) = true := by
    simp only [Bool.and_eq_true, decide_eq_true_eq, byte_le hlt, le_byte hlt]
    exact ⟨show 240 ≤ _ by omega, show _ ≤ 244 by omega⟩
  have hsecond : secondOfFour (UInt8.ofNat (v / 262144 % 8 + 240))
      (UInt8.ofNat (v / 4096 % 64 + 128)) = true := by
    unfold secondOfFour
    split
    · next heq =>
      have heq : v / 262144 % 8 + 240 = 240 := (byte_eq hlt _).1 heq
      simp only [Bool.and_eq_true, decide_eq_true_eq, byte_le hlt₂, le_byte hlt₂]
      exact ⟨show 144 ≤ _ by omega, show _ ≤ 191 by omega⟩
    · split
      · next heq =>
        have heq : v / 262144 % 8 + 240 = 244 := (byte_eq hlt _).1 heq
        simp only [Bool.and_eq_true, decide_eq_true_eq, byte_le hlt₂, le_byte hlt₂]
        exact ⟨show 128 ≤ _ by omega, show _ ≤ 143 by omega⟩
      · exact isContinuation_byte _
  have hvalue : (v / 262144 % 8 + 240) % 8 * 262144 + v / 4096 % 64 * 4096 + v / 64 % 64 * 64 +
      v % 64 = v := by omega
  rw [decodeFrom.eq_def]
  simp only [hone, htwo, hthree, hfour, if_false, Bool.false_eq_true, hsecond,
    isContinuation_byte, if_true, tail_byte, toNat_byte hlt, hvalue]

/-- A character is read as it was written, whatever follows it. -/
theorem decodeFrom_char (c : Char) :
    ∃ valid', decodeFrom valid seen (String.utf8EncodeChar c ++ rest) =
      decodeFrom valid' (c :: seen) rest := by
  have hscalar : c.toNat < 0xD800 ∨ 0xDFFF < c.toNat ∧ c.toNat < 0x110000 := c.valid
  have hchar : Char.ofNat c.toNat = c := Char.ofNat_toNat c
  fun_cases String.utf8EncodeChar c with
  | case1 v h =>
    have hone := decodeFrom_one valid seen rest (v := c.toNat)
      (Nat.lt_succ_of_le h)
    rw [hchar] at hone
    exact ⟨_, hone⟩
  | case2 v h₁ h₂ =>
    have htwo := decodeFrom_two valid seen rest (v := c.toNat)
      (Nat.lt_of_not_le h₁) (Nat.lt_succ_of_le h₂)
    rw [hchar] at htwo
    exact ⟨_, htwo⟩
  | case3 v h₁ h₂ h₃ =>
    have hthree := decodeFrom_three valid seen rest (v := c.toNat)
      (Nat.lt_of_not_le h₂) (Nat.lt_succ_of_le h₃) (hscalar.imp_right (·.1))
    rw [hchar] at hthree
    exact ⟨_, hthree⟩
  | case4 v h₁ h₂ h₃ =>
    have hlow : 65536 ≤ c.toNat := Nat.lt_of_not_le h₃
    have hfour := decodeFrom_four valid seen rest (v := c.toNat)
      hlow (by omega)
    rw [hchar] at hfour
    exact ⟨_, hfour⟩

theorem decodeFrom_chars (chars : List Char) :
    decodeFrom valid seen (chars.flatMap String.utf8EncodeChar) =
      .ok (String.ofList (seen.reverse ++ chars)) := by
  induction chars generalizing valid seen with
  | nil =>
    rw [decodeFrom.eq_def]
    simp
  | cons c chars ih =>
    obtain ⟨valid', hc⟩ := decodeFrom_char valid seen (chars.flatMap String.utf8EncodeChar) c
    rw [List.flatMap_cons, hc, ih]
    simp

/-- **Text reads back from its bytes.** -/
theorem decode_encode (s : String) : decode (encode s) = .ok s := by
  simp only [decode, encode, decodeFrom_chars, List.reverse_nil, List.nil_append,
    String.ofList_toList]

/-! ## What is read -/

theorem ofNat_val {v : Nat} (scalar : v < 0xD800 ∨ 0xDFFF < v ∧ v < 0x110000) :
    (Char.ofNat v).val.toNat = v := by
  have hvalid : v.isValidChar := scalar
  rw [Char.ofNat, dif_pos hvalid]
  rfl

theorem ofNat_byte {n : Nat} {b : UInt8} (h : n = b.toNat) : UInt8.ofNat n = b := by
  rw [h, UInt8.ofNat_toNat]

theorem toNat_between {low high b : UInt8} (h : (low ≤ b && b ≤ high) = true) :
    low.toNat ≤ b.toNat ∧ b.toNat ≤ high.toNat := by
  simpa only [Bool.and_eq_true, decide_eq_true_eq, UInt8.le_iff_toNat_le] using h

variable {a b c d : UInt8}

theorem spelt_one (ha : a < 0x80) : String.utf8EncodeChar (Char.ofNat a.toNat) = [a] := by
  have ha : a.toNat < 128 := UInt8.lt_iff_toNat_lt.1 ha
  have hvalue := ofNat_val (v := a.toNat) (by omega)
  have hone : a.toNat ≤ 127 := by omega
  simp only [String.utf8EncodeChar, hvalue, hone, if_true, UInt8.ofNat_toNat]

theorem spelt_two (ha : (0xC2 ≤ a && a ≤ 0xDF) = true) (hb : isContinuation b = true) :
    String.utf8EncodeChar (Char.ofNat (a.toNat % 32 * 64 + tail b)) = [a, b] := by
  obtain ⟨ha, ha'⟩ : 194 ≤ a.toNat ∧ a.toNat ≤ 223 := toNat_between ha
  obtain ⟨hb, hb'⟩ : 128 ≤ b.toNat ∧ b.toNat ≤ 191 := toNat_between hb
  rw [tail]
  have hvalue := ofNat_val (v := a.toNat % 32 * 64 + b.toNat % 64) (by omega)
  have hone : ¬ a.toNat % 32 * 64 + b.toNat % 64 ≤ 127 := by omega
  have htwo : a.toNat % 32 * 64 + b.toNat % 64 ≤ 2047 := by omega
  simp only [String.utf8EncodeChar, hvalue, hone, htwo, if_true, if_false, List.cons.injEq,
    and_true]
  exact ⟨ofNat_byte (by omega), ofNat_byte (by omega)⟩

theorem spelt_three (ha : (0xE0 ≤ a && a ≤ 0xEF) = true) (hb : secondOfThree a b = true)
    (hc : isContinuation c = true) :
    String.utf8EncodeChar (Char.ofNat (a.toNat % 16 * 4096 + tail b * 64 + tail c)) =
      [a, b, c] := by
  obtain ⟨ha, ha'⟩ : 224 ≤ a.toNat ∧ a.toNat ≤ 239 := toNat_between ha
  obtain ⟨hc, hc'⟩ : 128 ≤ c.toNat ∧ c.toNat ≤ 191 := toNat_between hc
  -- The bounds on the second byte leave out what is too low and the surrogates.
  obtain ⟨hb, hb', hlow, hsurrogate⟩ : 128 ≤ b.toNat ∧ b.toNat ≤ 191 ∧
      (a.toNat = 224 → 160 ≤ b.toNat) ∧ (a.toNat = 237 → b.toNat ≤ 159) := by
    unfold secondOfThree at hb
    split at hb
    · next heq =>
      have heq : a.toNat = 224 := congrArg UInt8.toNat heq
      obtain ⟨hb, hb'⟩ : 160 ≤ b.toNat ∧ b.toNat ≤ 191 := toNat_between hb
      omega
    · next hne =>
      have hne : a.toNat ≠ 224 := fun heq => hne (UInt8.toNat_inj.1 heq)
      split at hb
      · obtain ⟨hb, hb'⟩ : 128 ≤ b.toNat ∧ b.toNat ≤ 159 := toNat_between hb
        omega
      · next hne' =>
        have hne' : a.toNat ≠ 237 := fun heq => hne' (UInt8.toNat_inj.1 heq)
        have hbounds : 128 ≤ b.toNat ∧ b.toNat ≤ 191 := toNat_between hb
        omega
  rw [tail, tail]
  have hvalue := ofNat_val (v := a.toNat % 16 * 4096 + b.toNat % 64 * 64 + c.toNat % 64) (by omega)
  have hone : ¬ a.toNat % 16 * 4096 + b.toNat % 64 * 64 + c.toNat % 64 ≤ 127 := by omega
  have htwo : ¬ a.toNat % 16 * 4096 + b.toNat % 64 * 64 + c.toNat % 64 ≤ 2047 := by omega
  have hthree : a.toNat % 16 * 4096 + b.toNat % 64 * 64 + c.toNat % 64 ≤ 65535 := by omega
  simp only [String.utf8EncodeChar, hvalue, hone, htwo, hthree, if_true, if_false,
    List.cons.injEq, and_true]
  exact ⟨ofNat_byte (by omega), ofNat_byte (by omega), ofNat_byte (by omega)⟩

theorem spelt_four (ha : (0xF0 ≤ a && a ≤ 0xF4) = true) (hb : secondOfFour a b = true)
    (hc : isContinuation c = true) (hd : isContinuation d = true) :
    String.utf8EncodeChar (Char.ofNat
      (a.toNat % 8 * 262144 + tail b * 4096 + tail c * 64 + tail d)) = [a, b, c, d] := by
  obtain ⟨ha, ha'⟩ : 240 ≤ a.toNat ∧ a.toNat ≤ 244 := toNat_between ha
  obtain ⟨hc, hc'⟩ : 128 ≤ c.toNat ∧ c.toNat ≤ 191 := toNat_between hc
  obtain ⟨hd, hd'⟩ : 128 ≤ d.toNat ∧ d.toNat ≤ 191 := toNat_between hd
  -- The bounds on the second byte leave out what is too low or too high.
  obtain ⟨hb, hb', hlow, hhigh⟩ : 128 ≤ b.toNat ∧ b.toNat ≤ 191 ∧
      (a.toNat = 240 → 144 ≤ b.toNat) ∧ (a.toNat = 244 → b.toNat ≤ 143) := by
    unfold secondOfFour at hb
    split at hb
    · next heq =>
      have heq : a.toNat = 240 := congrArg UInt8.toNat heq
      obtain ⟨hb, hb'⟩ : 144 ≤ b.toNat ∧ b.toNat ≤ 191 := toNat_between hb
      omega
    · next hne =>
      have hne : a.toNat ≠ 240 := fun heq => hne (UInt8.toNat_inj.1 heq)
      split at hb
      · obtain ⟨hb, hb'⟩ : 128 ≤ b.toNat ∧ b.toNat ≤ 143 := toNat_between hb
        omega
      · next hne' =>
        have hne' : a.toNat ≠ 244 := fun heq => hne' (UInt8.toNat_inj.1 heq)
        have hbounds : 128 ≤ b.toNat ∧ b.toNat ≤ 191 := toNat_between hb
        omega
  rw [tail, tail, tail]
  generalize hv : a.toNat % 8 * 262144 + b.toNat % 64 * 4096 + c.toNat % 64 * 64 + d.toNat % 64 = v
  have hvalue := ofNat_val (v := v) (by omega)
  have hone : ¬ v ≤ 127 := by omega
  have htwo : ¬ v ≤ 2047 := by omega
  have hthree : ¬ v ≤ 65535 := by omega
  simp only [String.utf8EncodeChar, hvalue, hone, htwo, hthree, if_false, List.cons.injEq,
    and_true]
  exact ⟨ofNat_byte (by omega), ofNat_byte (by omega), ofNat_byte (by omega),
    ofNat_byte (by omega)⟩

/-- One character is read, and then the others. -/
theorem spelt_cons {char : Char} {seen : List Char} {form rest : Bytes} {s : String}
    (first : String.utf8EncodeChar char = form)
    (others : ∃ chars, rest = chars.flatMap String.utf8EncodeChar ∧
      s = String.ofList ((char :: seen).reverse ++ chars)) :
    ∃ chars, form ++ rest = chars.flatMap String.utf8EncodeChar ∧
      s = String.ofList (seen.reverse ++ chars) := by
  obtain ⟨chars, rfl, rfl⟩ := others
  exact ⟨char :: chars, by rw [List.flatMap_cons, first], by simp⟩

/-- Only what was written so is read: each character has one form. -/
theorem decodeFrom_eq_ok {valid : Nat} {seen : List Char} {bytes : Bytes} {s : String}
    (h : decodeFrom valid seen bytes = .ok s) :
    ∃ chars, bytes = chars.flatMap String.utf8EncodeChar ∧
      s = String.ofList (seen.reverse ++ chars) := by
  fun_induction decodeFrom valid seen bytes with
  | case1 valid seen =>
    cases h
    exact ⟨[], rfl, by simp⟩
  | case2 valid seen a rest ha ih => exact spelt_cons (spelt_one ha) (ih h)
  | case4 valid seen a _ ha b rest hb ih => exact spelt_cons (spelt_two ha hb) (ih h)
  | case8 valid seen a _ _ ha b hb c rest hc ih => exact spelt_cons (spelt_three ha hb hc) (ih h)
  | case14 valid seen a _ _ _ ha b hb c hc d rest hd ih =>
    exact spelt_cons (spelt_four ha hb hc hd) (ih h)
  | _ => cases h

/-- **Only the bytes of a text are read as it.** -/
theorem encode_decode {bytes : Bytes} {s : String} (h : decode bytes = .ok s) :
    encode s = bytes := by
  obtain ⟨chars, rfl, rfl⟩ := decodeFrom_eq_ok h
  rw [encode, List.reverse_nil, List.nil_append, String.toList_ofList]

end RpcClient.Utf8
