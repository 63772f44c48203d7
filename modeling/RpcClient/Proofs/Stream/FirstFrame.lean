/-
The first frame of a stream. A reader that has read nothing finds just what
`Framing.first?` says of the bytes (`FrameReader.first?_eq`): nothing yet, the
fault of a length, or the payload. In the last case it has read the payload as it
is framed, and no byte more (`start_read_ok`).
-/
import RpcClient.Proofs.Binary.ReadBack
import RpcClient.Stream.Framing

namespace RpcClient

namespace FrameReader

/-- The bytes behind the length make up the payload. -/
theorem payload_read (more : Nat) (seen bytes : Bytes) :
    (payload more seen).read bytes =
      if bytes.length ≤ more then
        (payload (more - bytes.length) (bytes.reverse ++ seen), none, [])
      else
        (start, some (.ok (seen.reverse ++ bytes.take (more + 1))), bytes.drop (more + 1)) := by
  induction bytes generalizing more seen with
  | nil => simp [read]
  | cons b bytes ih =>
    cases more with
    | zero => simp [read, push]
    | succ more =>
      have hread : (payload (more + 1) seen).read (b :: bytes) =
          (payload more (b :: seen)).read bytes := rfl
      rw [hread, ih more (b :: seen)]
      simp only [List.length_cons, Nat.add_le_add_iff_right]
      split
      · simp
      · simp

theorem start_read_few {bytes : Bytes} (few : bytes.length < 4) :
    start.read bytes = (length bytes.reverse, none, []) := by
  match bytes with
  | [] => rfl
  | [_] => rfl
  | [_, _] => rfl
  | [_, _, _] => rfl
  | _ :: _ :: _ :: _ :: rest =>
    simp only [List.length_cons] at few
    omega

theorem start_read_four (a b d e : UInt8) (rest : Bytes) :
    start.read (a :: b :: d :: e :: rest) =
      let n := Bytes.ofBig [a, b, d, e]
      if Framing.maxLength < n then (start, some (.error (.tooLong n)), rest)
      else if rest.length < n then (payload (n - 1 - rest.length) rest.reverse, none, [])
      else (start, some (.ok (rest.take n)), rest.drop n) := by
  have hread : start.read (a :: b :: d :: e :: rest) = (length [d, b, a]).read (e :: rest) := rfl
  have hvalue : Bytes.ofLittle [e, d, b, a] = Bytes.ofBig [a, b, d, e] := rfl
  rw [hread, read, push]
  simp only [List.length_cons, List.length_nil, Nat.lt_irrefl, if_false, hvalue]
  by_cases hlong : Framing.maxLength < Bytes.ofBig [a, b, d, e]
  · simp [hlong]
  · simp only [hlong, if_false]
    cases hn : Bytes.ofBig [a, b, d, e] with
    | zero => simp
    | succ more =>
      simp only [payload_read, Nat.lt_succ_iff]
      split
      · simp
      · simp

theorem exists_four {bytes : Bytes} (enough : ¬ bytes.length < 4) :
    ∃ a b d e rest, bytes = a :: b :: d :: e :: rest := by
  match bytes with
  | [] | [_] | [_, _] | [_, _, _] => simp at enough
  | a :: b :: d :: e :: rest => exact ⟨a, b, d, e, rest, rfl⟩

/-- What a reader finds first. -/
theorem first?_eq (bytes : Bytes) : (start.read bytes).2.1 = Framing.first? bytes := by
  by_cases few : bytes.length < 4
  · rw [start_read_few few, Framing.first?, if_pos few]
  · obtain ⟨a, b, d, e, rest, rfl⟩ := exists_four few
    have hlength : (a :: b :: d :: e :: rest).length = 4 + rest.length := by
      simp only [List.length_cons]
      omega
    rw [start_read_four, Framing.first?, if_neg few]
    simp only [hlength, List.take_succ_cons, List.take_zero, List.drop_succ_cons, List.drop_zero,
      Nat.add_lt_add_iff_left]
    split
    · rfl
    · split <;> rfl

/-- A payload that was read stood on the stream as it is framed, and no byte
behind it was read. -/
theorem start_read_ok {r : FrameReader} {bytes payload rest : Bytes}
    (h : start.read bytes = (r, some (.ok payload), rest)) :
    r = start ∧ bytes = Framing.framed payload ++ rest ∧ payload.length ≤ Framing.maxLength := by
  by_cases few : bytes.length < 4
  · rw [start_read_few few] at h
    cases h
  · obtain ⟨a, b, d, e, more, rfl⟩ := exists_four few
    rw [start_read_four] at h
    dsimp only at h
    split at h
    · cases h
    · next hshort =>
      split at h
      · cases h
      · next henough =>
        cases h
        have hlength : (more.take (Bytes.ofBig [a, b, d, e])).length =
            Bytes.ofBig [a, b, d, e] := by
          rw [List.length_take]
          omega
        have hbig : Bytes.big 4 (Bytes.ofBig [a, b, d, e]) = [a, b, d, e] :=
          Bytes.big_ofBig [a, b, d, e]
        refine ⟨rfl, ?_, by omega⟩
        rw [Framing.framed, hlength, hbig, List.append_assoc, List.take_append_drop]
        rfl

/-- What is left over stands at the end of the bytes. -/
theorem read_suffix {r r' : FrameReader} {bytes rest : Bytes}
    {result : Option (Except FrameFault Bytes)} (h : r.read bytes = (r', result, rest)) :
    rest <:+ bytes := by
  induction bytes generalizing r with
  | nil =>
    cases h
    exact List.suffix_rfl
  | cons b bytes ih =>
    rw [read] at h
    split at h
    · exact (ih h).trans (List.suffix_cons b bytes)
    · cases h
      exact List.suffix_cons _ _

/-- The bytes behind a frame are not needed for it. -/
theorem read_front {r r' : FrameReader} {front rest : Bytes} {result : Except FrameFault Bytes}
    (h : r.read (front ++ rest) = (r', some result, rest)) :
    r.read front = (r', some result, []) := by
  induction front generalizing r with
  | nil => exact absurd (read_rest_length h) (Nat.lt_irrefl _)
  | cons b front ih =>
    rw [List.cons_append, read] at h
    rw [read]
    split at h
    · next r₁ hpush => exact ih h
    · next r₁ result₁ hpush =>
      simp only [Prod.mk.injEq] at h
      obtain ⟨rfl, hresult, hrest⟩ := h
      rw [hresult, List.append_left_eq_self.1 hrest]

end FrameReader

end RpcClient
