/-
Texts and whole numbers are spelled as the grammar has them (`text_spelling`,
`int_spelling`), and their spellings stand for them (`unspell?_spell`, `int?_spellInt`). A
character is an escape of one letter, a control character by its number, or bytes that stand
for themselves (`spellChar_cases`).
-/
import RpcClient.Json.Format
import RpcClient.Proofs.Json.Parsing
import RpcClient.Proofs.Text.Utf8

namespace RpcClient.Json

/-! ## Characters -/

/-- Whether a byte stands for itself in a string. -/
def isPlain (b : UInt8) : Bool := b ≠ 0x22 && b ≠ 0x5C && 0x20 ≤ b

variable {b : UInt8} {c : Char}

theorem isPlain_ofNat {n : Nat} (hn : n < 256) (control : 0x20 ≤ n) (quote : n ≠ 0x22)
    (backslash : n ≠ 0x5C) : isPlain (UInt8.ofNat n) = true := by
  have hquote : UInt8.ofNat n ≠ 0x22 := fun h => quote ((Utf8.byte_eq hn _).1 h)
  have hbackslash : UInt8.ofNat n ≠ 0x5C := fun h => backslash ((Utf8.byte_eq hn _).1 h)
  have hcontrol : 0x20 ≤ UInt8.ofNat n := (UInt8.le_iff_toNat_le).2 (by rwa [Utf8.toNat_byte hn])
  simp [isPlain, hquote, hbackslash, hcontrol]

/-- The bytes of a character that needs no escape. -/
theorem isPlain_utf8 (control : 0x20 ≤ c.toNat) (quote : c ≠ '"') (backslash : c ≠ '\\') :
    ∀ b ∈ String.utf8EncodeChar c, isPlain b = true := by
  have hquote : c.toNat ≠ 0x22 := fun h => quote (Char.toNat_inj.1 h)
  have hbackslash : c.toNat ≠ 0x5C := fun h => backslash (Char.toNat_inj.1 h)
  have high : ∀ n, n < 128 → isPlain (UInt8.ofNat (n + 128)) = true := fun n hn =>
    isPlain_ofNat (by omega) (by omega) (by omega) (by omega)
  intro b hb
  unfold String.utf8EncodeChar at hb
  dsimp only at hb
  split at hb
  · next hone =>
    obtain rfl := List.mem_singleton.1 hb
    exact isPlain_ofNat (n := c.toNat) (Nat.lt_of_le_of_lt hone (by decide)) control hquote
      hbackslash
  · split at hb
    · simp only [List.mem_cons, List.not_mem_nil, or_false] at hb
      rcases hb with rfl | rfl
      · exact high _ (by omega)
      · exact high _ (by omega)
    · split at hb
      · simp only [List.mem_cons, List.not_mem_nil, or_false] at hb
        rcases hb with rfl | rfl | rfl
        · exact high _ (by omega)
        · exact high _ (by omega)
        · exact high _ (by omega)
      · simp only [List.mem_cons, List.not_mem_nil, or_false] at hb
        rcases hb with rfl | rfl | rfl | rfl
        · exact high _ (by omega)
        · exact high _ (by omega)
        · exact high _ (by omega)
        · exact high _ (by omega)

/-- The three ways in which a character is spelled. -/
theorem spellChar_cases (c : Char) :
    (∃ e b, spellChar c = [0x5C, e] ∧ String.utf8EncodeChar c = [b] ∧ shortEscape? e = some b ∧
      State.isShortEscape e = true ∧ e ≠ 0x75) ∨
    (c.toNat < 0x20 ∧ spellChar c =
      [0x5C, 0x75, 0x30, 0x30, hexDigit (c.toNat / 16), hexDigit (c.toNat % 16)]) ∨
    (spellChar c = String.utf8EncodeChar c ∧ ∀ b ∈ String.utf8EncodeChar c, isPlain b = true) := by
  fun_cases spellChar c with
  | case1 => exact .inl ⟨_, _, rfl, rfl, rfl, rfl, by decide⟩
  | case2 => exact .inl ⟨_, _, rfl, rfl, rfl, rfl, by decide⟩
  | case3 => exact .inl ⟨_, _, rfl, rfl, rfl, rfl, by decide⟩
  | case4 => exact .inl ⟨_, _, rfl, rfl, rfl, rfl, by decide⟩
  | case5 => exact .inl ⟨_, _, rfl, rfl, rfl, rfl, by decide⟩
  | case6 => exact .inl ⟨_, _, rfl, rfl, rfl, rfl, by decide⟩
  | case7 => exact .inl ⟨_, _, rfl, rfl, rfl, rfl, by decide⟩
  | case8 _ _ _ _ _ _ _ _ control => exact .inr (.inl ⟨control, rfl⟩)
  | case9 _ quote backslash _ _ _ _ _ control =>
    exact .inr (.inr ⟨rfl, isPlain_utf8 (Nat.le_of_not_lt control) quote backslash⟩)

theorem hexValue?_hexDigit {n : Nat} (h : n < 16) : hexValue? (hexDigit n) = some n := by
  have hall : ∀ n < 16, hexValue? (hexDigit n) = some n := by decide
  exact hall n h

theorem isHexDigit_hexDigit {n : Nat} (h : n < 16) : State.isHexDigit (hexDigit n) = true := by
  have hall : ∀ n < 16, State.isHexDigit (hexDigit n) = true := by decide
  exact hall n h

/-! ## Texts -/

theorem next?_plain (h : isPlain b = true) : InText.plain.next? b = some .plain := by
  simp only [isPlain, Bool.and_eq_true, decide_eq_true_eq] at h
  obtain ⟨⟨hquote, hbackslash⟩, hcontrol⟩ := h
  have hlow : ¬ b < 0x20 := UInt8.not_lt.2 hcontrol
  unfold InText.next?
  split
  · exact absurd rfl hquote
  · simp only [State.textStep, hbackslash, hlow, if_false]

theorem foldlM_plain {bytes : Bytes} (h : ∀ b ∈ bytes, isPlain b = true) :
    bytes.foldlM InText.next? .plain = some .plain := by
  induction bytes with
  | nil => rfl
  | cons b bytes ih =>
    rw [List.foldlM_cons, next?_plain (h b List.mem_cons_self)]
    exact ih fun b hb => h b (List.mem_cons_of_mem _ hb)

theorem spellChar_spelling (c : Char) : TextSpelling (spellChar c) := by
  rcases spellChar_cases c with
    ⟨e, b, hspell, -, -, he, hne⟩ | ⟨hcontrol, hspell⟩ | ⟨hspell, hplain⟩
  · rw [TextSpelling, hspell]
    simp [List.foldlM, InText.next?, State.textStep, hne, he]
  · have hhigh := isHexDigit_hexDigit (n := c.toNat / 16) (by omega)
    have hlow := isHexDigit_hexDigit (n := c.toNat % 16) (by omega)
    have hzero : State.isHexDigit 0x30 = true := rfl
    rw [TextSpelling, hspell]
    simp [List.foldlM, InText.next?, State.textStep, hhigh, hlow, hzero]
  · rw [hspell]
    exact foldlM_plain hplain

/-- A text may stand between quotes. -/
theorem text_spelling (s : String) : TextSpelling (spell s) := by
  rw [TextSpelling, spell]
  induction s.toList with
  | nil => rfl
  | cons c chars ih =>
    have hchar : (spellChar c).foldlM InText.next? .plain = some .plain := spellChar_spelling c
    rw [List.flatMap_cons, List.foldlM_append, hchar]
    exact ih

theorem unescape_plain {bytes : Bytes} (h : ∀ b ∈ bytes, isPlain b = true) (seen rest : Bytes) :
    unescape seen (bytes ++ rest) = unescape (bytes.reverse ++ seen) rest := by
  induction bytes generalizing seen with
  | nil => rfl
  | cons b bytes ih =>
    have hbackslash : b ≠ 0x5C := by
      have hplain := h b List.mem_cons_self
      simp only [isPlain, Bool.and_eq_true, decide_eq_true_eq] at hplain
      exact hplain.1.2
    have hfirst : unescape seen (b :: (bytes ++ rest)) = unescape (b :: seen) (bytes ++ rest) := by
      rw [unescape.eq_def]
      split <;> simp_all
    rw [List.cons_append, hfirst, ih fun b hb => h b (List.mem_cons_of_mem _ hb)]
    simp

/-- A character is read as it was spelled, whatever follows it. -/
theorem unescape_char (c : Char) (seen rest : Bytes) :
    unescape seen (spellChar c ++ rest) =
      unescape ((String.utf8EncodeChar c).reverse ++ seen) rest := by
  rcases spellChar_cases c with ⟨e, b, hspell, hbytes, he, -, hne⟩ | ⟨hcontrol, hspell⟩ |
    ⟨hspell, hplain⟩
  · rw [hspell, hbytes]
    simp [unescape, he, hne]
  · have hfour : hexFour? 0x30 0x30 (hexDigit (c.toNat / 16)) (hexDigit (c.toNat % 16)) =
        some c.toNat := by
      have hzero : hexValue? 0x30 = some 0 := rfl
      have hhigh := hexValue?_hexDigit (n := c.toNat / 16) (by omega)
      have hlow := hexValue?_hexDigit (n := c.toNat % 16) (by omega)
      have hvalue : (0 * 16 + 0) * 256 + (c.toNat / 16 * 16 + c.toNat % 16) = c.toNat := by omega
      simp only [hexFour?, hzero, hhigh, hlow, Option.pure_def, Option.bind_eq_bind,
        Option.bind_some, hvalue]
    have hnotHigh : ¬ (0xD800 ≤ c.toNat ∧ c.toNat < 0xDC00) := by omega
    have hnotLow : ¬ (0xDC00 ≤ c.toNat ∧ c.toNat < 0xE000) := by omega
    rw [hspell]
    simp only [List.cons_append, List.nil_append, unescape, hfour, hnotHigh, hnotLow, if_false,
      Char.ofNat_toNat]
  · rw [hspell]
    exact unescape_plain hplain seen rest

/-- **A text is what its spelling stands for.** -/
theorem unspell?_spell (s : String) : unspell? (spell s) = some s := by
  have hbytes : ∀ (chars : List Char) (seen : Bytes),
      unescape seen (chars.flatMap spellChar) =
        some (seen.reverse ++ chars.flatMap String.utf8EncodeChar) := by
    intro chars
    induction chars with
    | nil => intro seen; simp [unescape]
    | cons c chars ih =>
      intro seen
      rw [List.flatMap_cons, unescape_char, ih]
      simp
  have hencode : unescape [] (spell s) = some (Utf8.encode s) := hbytes s.toList []
  rw [unspell?, hencode, Option.bind_some, Utf8.decode?, Utf8.decode_encode]
  rfl

/-! ## Whole numbers -/

open Format

/-- A digit by its value. -/
def digit (n : Nat) : UInt8 := UInt8.ofNat (0x30 + n)

theorem isDigit_digit {n : Nat} (h : n < 10) : State.isDigit (digit n) = true := by
  have hall : ∀ n < 10, State.isDigit (digit n) = true := by decide
  exact hall n h

theorem value_digit {n : Nat} (h : n < 10) : (digit n).toNat - 0x30 = n := by
  have hall : ∀ n < 10, (digit n).toNat - 0x30 = n := by decide
  exact hall n h

/-- The digits of a number. -/
def digitsOf (n : Nat) : Bytes := (Nat.toDigits 10 n).map fun c => UInt8.ofNat c.toNat

theorem digit_digitChar {n : Nat} (h : n < 10) : UInt8.ofNat n.digitChar.toNat = digit n := by
  have hall : ∀ n < 10, UInt8.ofNat n.digitChar.toNat = digit n := by decide
  exact hall n h

theorem digitsOf_small {n : Nat} (h : n < 10) : digitsOf n = [digit n] := by
  rw [digitsOf, Nat.toDigits_of_lt_base h, List.map_singleton, digit_digitChar h]

theorem digitsOf_large {n : Nat} (h : 10 ≤ n) :
    digitsOf n = digitsOf (n / 10) ++ [digit (n % 10)] := by
  rw [digitsOf, Nat.toDigits_of_base_le (by decide) h, List.map_append, List.map_singleton,
    digit_digitChar (Nat.mod_lt n (by decide)), ← digitsOf]

/-- What holds of the digits below ten, and of one digit more, holds of all digits. -/
theorem digitsOf_induction {P : Nat → Prop} (small : ∀ n < 10, P n)
    (large : ∀ n, 10 ≤ n → P (n / 10) → P n) (n : Nat) : P n := by
  induction n using Nat.strongRecOn with
  | ind n ih =>
    by_cases h : n < 10
    · exact small n h
    · exact large n (Nat.le_of_not_lt h) (ih (n / 10) (by omega))

theorem ofDigits_digitsOf (n : Nat) : ofDigits (digitsOf n) = n := by
  induction n using digitsOf_induction with
  | small n h =>
    rw [digitsOf_small h]
    simp [ofDigits, value_digit h]
  | large n h ih =>
    have hlast : n % 10 < 10 := Nat.mod_lt n (by decide)
    rw [ofDigits] at ih
    rw [digitsOf_large h, ofDigits, List.foldl_append, ih]
    simp only [List.foldl_cons, List.foldl_nil, value_digit hlast]
    omega

/-- No number but zero begins with a zero. -/
theorem digitsOf_first {n : Nat} (h : 0 < n) :
    ∃ first rest, digitsOf n = digit first :: rest ∧ 0 < first ∧ first < 10 ∧
      rest.all State.isDigit = true := by
  induction n using digitsOf_induction with
  | small n hn => exact ⟨n, [], digitsOf_small hn, h, hn, rfl⟩
  | large n hn ih =>
    obtain ⟨first, rest, hdigits, hpos, hlt, hrest⟩ := ih (by omega)
    have hlast := isDigit_digit (n := n % 10) (Nat.mod_lt n (by decide))
    refine ⟨first, rest ++ [digit (n % 10)], ?_, hpos, hlt, ?_⟩
    · rw [digitsOf_large hn, hdigits, List.cons_append]
    · simp [hrest, hlast]

theorem spellInt_ofNat (n : Nat) : spellInt n = digitsOf n := by
  show Document.word n.repr = _
  rw [Document.word, Nat.repr_eq_ofList_toDigits, String.toList_ofList, digitsOf]

theorem spellInt_neg (n : Nat) : spellInt (Int.negSucc n) = 0x2D :: digitsOf (n + 1) := by
  show Document.word ("-" ++ (n + 1).repr) = _
  simp only [Document.word, Nat.repr_eq_ofList_toDigits, String.toList_append,
    String.toList_ofList, List.map_append]
  rfl

theorem foldlM_digits {digits : Bytes} (h : digits.all State.isDigit = true) :
    digits.foldlM State.numberStep .whole = some .whole := by
  induction digits with
  | nil => rfl
  | cons b digits ih =>
    rw [List.all_cons, Bool.and_eq_true] at h
    have hb : State.numberStep .whole b = some .whole := by simp [State.numberStep, h.1]
    rw [List.foldlM_cons, hb]
    exact ih h.2

theorem digitsOf_digits (n : Nat) : (digitsOf n).all State.isDigit = true := by
  rcases Nat.eq_zero_or_pos n with rfl | hpos
  · rfl
  · obtain ⟨first, rest, hdigits, -, hlt, hrest⟩ := digitsOf_first hpos
    rw [hdigits, List.all_cons, isDigit_digit hlt, hrest]
    rfl

/-- A number is spelled without a zero in front. -/
theorem int_spelling (n : Int) : NumberSpelling (spellInt n) := by
  have hbegin : ∀ first, 0 < first → first < 10 → ∀ outer,
      State.begin outer (digit first) = .number .whole [digit first] outer := by
    have hplain : ∀ first < 10, 0 < first → State.isBlank (digit first) = false ∧
        digit first ≠ 0x22 ∧ digit first ≠ 0x5B ∧ digit first ≠ 0x7B ∧ digit first ≠ 0x2D ∧
        digit first ≠ 0x30 := by decide
    intro first hpos hlt outer
    obtain ⟨hblank, hquote, harray, hobject, hminus, hzero⟩ := hplain first hlt hpos
    simp [State.begin, hblank, hquote, harray, hobject, hminus, hzero, isDigit_digit hlt]
  cases n with
  | ofNat n =>
    have hspell : spellInt (Int.ofNat n) = digitsOf n := spellInt_ofNat n
    rw [hspell]
    rcases Nat.eq_zero_or_pos n with rfl | hpos
    · exact .mk (fun _ => rfl) rfl (rfl : State.mayEnd .zero = true)
    · obtain ⟨first, rest, hdigits, hfirst, hlt, hrest⟩ := digitsOf_first hpos
      rw [hdigits]
      exact .mk (hbegin first hfirst hlt) (foldlM_digits hrest) rfl
  | negSucc n =>
    obtain ⟨first, rest, hdigits, hfirst, hlt, hrest⟩ := digitsOf_first (Nat.succ_pos n)
    have hstep : State.numberStep .minus (digit first) = some .whole := by
      have hzero : ∀ first < 10, 0 < first → digit first ≠ 0x30 := by decide
      simp [State.numberStep, hzero first hlt hfirst, isDigit_digit hlt]
    rw [spellInt_neg, hdigits]
    refine .mk (fun _ => rfl) ?_ (rfl : State.mayEnd .whole = true)
    rw [List.foldlM_cons, hstep]
    exact foldlM_digits hrest

/-- **A whole number is what its spelling stands for.** -/
theorem int?_spellInt (n : Int) : int? (spellInt n) = some n := by
  cases n with
  | ofNat n =>
    have hspell : spellInt (Int.ofNat n) = digitsOf n := spellInt_ofNat n
    have hsome : int? (digitsOf n) =
        if (digitsOf n).all State.isDigit then some (ofDigits (digitsOf n) : Int) else none := by
      rcases Nat.eq_zero_or_pos n with rfl | hpos
      · rfl
      · obtain ⟨first, rest, hdigits, hfirst, hlt, hrest⟩ := digitsOf_first hpos
        have hminus : ∀ first < 10, digit first ≠ 0x2D := by decide
        rw [hdigits]
        simp [int?, hminus first hlt]
    rw [hspell, hsome, digitsOf_digits, ofDigits_digitsOf]
    rfl
  | negSucc n =>
    have hne : n + 1 ≠ 0 := Nat.succ_ne_zero n
    rw [spellInt_neg]
    simp only [int?, digitsOf_digits, ofDigits_digitsOf, hne, Bool.true_and, ne_eq,
      not_false_eq_true, decide_true, if_true]
    rfl

end RpcClient.Json
