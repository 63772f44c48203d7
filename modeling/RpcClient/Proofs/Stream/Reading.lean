/-
Frames that are read off a stream in pieces. A reader that has seen part of a
frame holds just that part (`FrameReader.holding`), and one byte more either
leaves it holding more or completes the frame (`push_holding`). Bytes that come
in at once are read like those that come one after another
(`FrameReader.read_append`, `Connection.arrived_append`).
-/
import RpcClient.Proofs.Binary.ReadBack
import RpcClient.Proofs.Connection.LifeCycle

namespace RpcClient

namespace FrameReader

/-- The reader that has seen the first bytes of a framed payload, but not all. -/
def holding (payload front : Bytes) : FrameReader :=
  if front.length < 4 then .length front.reverse
  else .payload (payload.length + 3 - front.length) (front.drop 4).reverse

theorem length_big (n : Nat) : (Bytes.big 4 n).length = 4 := by
  rw [Bytes.big, List.length_reverse, Bytes.length_little]

theorem length_framed (payload : Bytes) : (Framing.framed payload).length = payload.length + 4 := by
  rw [Framing.framed, List.length_append, length_big, Nat.add_comm]

theorem framed_ne_nil (payload : Bytes) : Framing.framed payload ≠ [] := by
  intro h
  have hlength := length_framed payload
  rw [h] at hlength
  cases hlength

/-- The length that stands in front of a payload that is not too long. -/
theorem ofLittle_big {n : Nat} (fits : n ≤ Framing.maxLength) :
    Bytes.ofLittle (Bytes.big 4 n).reverse = n := by
  have hlt : n < 256 ^ 4 := Nat.lt_of_le_of_lt fits (by decide)
  rw [Bytes.big, List.reverse_reverse, Bytes.ofLittle_little, Nat.mod_eq_of_lt hlt]

variable {payload front back : Bytes} {b : UInt8}

/-- Another byte of the length that is not its last. -/
theorem push_length (h : front ++ b :: back = Framing.framed payload) (few : front.length < 3) :
    (holding payload front).push b = (holding payload (front ++ [b]), none) ∧ back ≠ [] := by
  have hfew : (front ++ [b]).length < 4 := by
    rw [List.length_append, List.length_singleton]
    omega
  have hlt : front.length < 4 := by omega
  constructor
  · simp only [holding, if_pos hlt, if_pos hfew, push, List.length_reverse, if_pos few,
      List.reverse_append, List.reverse_singleton, List.singleton_append]
  · rintro rfl
    have hlength := congrArg List.length h
    rw [length_framed, List.length_append, List.length_singleton] at hlength
    omega

/-- The last byte of the length. -/
theorem push_last (h : front ++ b :: back = Framing.framed payload)
    (fits : payload.length ≤ Framing.maxLength) (three : front.length = 3) :
    (holding payload front).push b =
      if back = [] then (start, some (.ok payload))
      else (holding payload (front ++ [b]), none) := by
  have hfour : (front ++ [b]).length = 4 := by
    rw [List.length_append, List.length_singleton, three]
  have hparts : (front ++ [b]) ++ back = Bytes.big 4 payload.length ++ payload := by
    rw [List.append_assoc, List.singleton_append]
    exact h
  obtain ⟨hlength, rfl⟩ := List.append_inj hparts (by rw [hfour, length_big])
  have hvalue : Bytes.ofLittle (b :: front.reverse) = back.length := by
    have hbig := ofLittle_big fits
    rwa [← hlength, List.reverse_append, List.reverse_singleton, List.singleton_append] at hbig
  have hnotlong : ¬ Framing.maxLength < back.length := Nat.not_lt.2 fits
  have hdrop : (front ++ [b]).drop 4 = [] := List.drop_eq_nil_of_le (Nat.le_of_eq hfour)
  have hbefore : holding back front = .length front.reverse := by simp [holding, three]
  have hafter : holding back (front ++ [b]) = .payload (back.length - 1) [] := by
    rw [holding, hfour, hdrop]
    rfl
  have hthree : ¬ front.reverse.length < 3 := by simp [three]
  rw [hbefore, hafter, push, if_neg hthree]
  simp only [hvalue, hnotlong, if_false]
  cases back with
  | nil => rfl
  | cons x back => simp

/-- A byte of the payload. -/
theorem push_payload (h : front ++ b :: back = Framing.framed payload) (four : 4 ≤ front.length) :
    (holding payload front).push b =
      if back = [] then (start, some (.ok payload))
      else (holding payload (front ++ [b]), none) := by
  have hparts : front.take 4 ++ (front.drop 4 ++ b :: back) =
      Bytes.big 4 payload.length ++ payload := by
    rw [← List.append_assoc, List.take_append_drop]
    exact h
  have htake : (front.take 4).length = 4 := by
    rw [List.length_take]
    omega
  obtain ⟨-, hpayload⟩ := List.append_inj hparts (by rw [htake, length_big])
  have hlength := congrArg List.length hpayload
  rw [List.length_append, List.length_cons, List.length_drop] at hlength
  have hmore : payload.length + 3 - front.length = back.length := by omega
  have hnotfew : ¬ front.length < 4 := by omega
  have hnotfew' : ¬ (front ++ [b]).length < 4 := by
    rw [List.length_append]
    omega
  have hmore' : payload.length + 3 - (front ++ [b]).length = back.length - 1 := by
    rw [List.length_append, List.length_singleton]
    omega
  have hdrop : (front ++ [b]).drop 4 = front.drop 4 ++ [b] := List.drop_append_of_le_length four
  simp only [holding, if_neg hnotfew, if_neg hnotfew', hmore, hmore', hdrop]
  cases back with
  | nil => simp [push, ← hpayload]
  | cons x back => simp [push]

/-- One byte more of a frame leaves the reader holding more, or completes it. -/
theorem push_holding (h : front ++ b :: back = Framing.framed payload)
    (fits : payload.length ≤ Framing.maxLength) :
    (holding payload front).push b =
      if back = [] then (start, some (.ok payload))
      else (holding payload (front ++ [b]), none) := by
  rcases Nat.lt_trichotomy front.length 3 with few | three | more
  · obtain ⟨hpush, hback⟩ := push_length h few
    rw [hpush, if_neg hback]
  · exact push_last h fits three
  · exact push_payload h more

/-! ## More bytes -/

variable {r r' : FrameReader} {bytes rest : Bytes}

/-- Bytes that end no frame are all used up. -/
theorem read_none (h : r.read bytes = (r', none, rest)) :
    rest = [] ∧ ∀ more, r.read (bytes ++ more) = r'.read more := by
  induction bytes generalizing r with
  | nil =>
    simp only [read, Prod.mk.injEq] at h
    obtain ⟨rfl, -, rfl⟩ := h
    exact ⟨rfl, fun _ => rfl⟩
  | cons b bytes ih =>
    simp only [read] at h
    split at h
    · next r₁ hpush =>
      obtain ⟨hrest, hmore⟩ := ih h
      refine ⟨hrest, fun more => ?_⟩
      simp only [List.cons_append, read, hpush]
      exact hmore more
    · simp only [Prod.mk.injEq, reduceCtorEq, false_and, and_false] at h

/-- What stands behind a frame is not looked at. -/
theorem read_some {result : Except FrameFault Bytes} (h : r.read bytes = (r', some result, rest))
    (more : Bytes) : r.read (bytes ++ more) = (r', some result, rest ++ more) := by
  induction bytes generalizing r with
  | nil => simp [read] at h
  | cons b bytes ih =>
    simp only [read] at h
    simp only [List.cons_append, read]
    split at h
    · next r₁ hpush =>
      exact ih h
    · next r₁ result₁ hpush =>
      simp only [Prod.mk.injEq] at h
      obtain ⟨rfl, hresult, rfl⟩ := h
      rw [hresult]

/-! ## A stream of frames -/

/-- A reader has read so many bytes of the first of some payloads. -/
def Within (r : FrameReader) : (payloads : List Bytes) → (seen : Nat) → Prop
  | [], seen => r = start ∧ seen = 0
  | p :: _, seen =>
    r = holding p ((Framing.framed p).take seen) ∧ seen < (Framing.framed p).length

/-- A reader is within some payloads, and the bytes are what is left of all. -/
structure Midway (r : FrameReader) (payloads : List Bytes) (seen : Nat) (bytes : Bytes) : Prop where
  fits : ∀ p ∈ payloads, p.length ≤ Framing.maxLength
  rest : (payloads.flatMap Framing.framed).drop seen = bytes
  reader : r.Within payloads seen

theorem Midway.nil : Midway start [] 0 [] := ⟨by simp, rfl, rfl, rfl⟩

/-- Before a payload nothing of it has been read. -/
theorem Midway.between {payloads : List Bytes}
    (fits : ∀ p ∈ payloads, p.length ≤ Framing.maxLength) :
    Midway start payloads 0 (payloads.flatMap Framing.framed) := by
  refine ⟨fits, rfl, ?_⟩
  cases payloads with
  | nil => exact ⟨rfl, rfl⟩
  | cons p payloads =>
    refine ⟨rfl, ?_⟩
    rw [length_framed]
    omega

/-- One payload more is sent. -/
theorem Midway.append {payloads : List Bytes} {seen : Nat} (h : Midway r payloads seen bytes)
    {p : Bytes} (fits : p.length ≤ Framing.maxLength) :
    Midway r (payloads ++ [p]) seen (bytes ++ Framing.framed p) := by
  have hfits : ∀ q ∈ payloads ++ [p], q.length ≤ Framing.maxLength := by
    intro q hq
    rcases List.mem_append.1 hq with hold | hnew
    · exact h.fits q hold
    · exact List.mem_singleton.1 hnew ▸ fits
  cases payloads with
  | nil =>
    obtain ⟨rfl, rfl⟩ := h.reader
    obtain rfl := h.rest
    simpa using Midway.between hfits
  | cons q payloads =>
    refine ⟨hfits, ?_, h.reader⟩
    have hseen : seen ≤ ((q :: payloads).flatMap Framing.framed).length := by
      rw [List.flatMap_cons, List.length_append]
      exact Nat.le_trans (Nat.le_of_lt h.reader.2) (Nat.le_add_right _ _)
    rw [List.flatMap_append, List.drop_append_of_le_length hseen, h.rest]
    simp

/-- The next byte leaves the reader in the midst of the same payload, or it
completes this. -/
theorem Midway.push {payloads : List Bytes} {seen : Nat} {b : UInt8}
    (h : Midway r payloads seen (b :: bytes)) :
    ∃ p more, payloads = p :: more ∧
      if seen + 1 = (Framing.framed p).length then
        r.push b = (start, some (.ok p)) ∧ Midway start more 0 bytes
      else ∃ r', r.push b = (r', none) ∧ Midway r' (p :: more) (seen + 1) bytes := by
  cases payloads with
  | nil => simpa using h.rest
  | cons p more =>
    refine ⟨p, more, rfl, ?_⟩
    obtain ⟨rfl, hseen⟩ := h.reader
    have hrest := h.rest
    rw [List.flatMap_cons, List.drop_append_of_le_length (Nat.le_of_lt hseen),
      List.drop_eq_getElem_cons hseen, List.cons_append, List.cons.injEq] at hrest
    obtain ⟨hb, hbytes⟩ := hrest
    have hsplit : (Framing.framed p).take seen ++ b :: (Framing.framed p).drop (seen + 1) =
        Framing.framed p := by
      rw [← hb, ← List.drop_eq_getElem_cons hseen, List.take_append_drop]
    have hpush := push_holding hsplit (h.fits p List.mem_cons_self)
    have hnext : (Framing.framed p).take seen ++ [b] = (Framing.framed p).take (seen + 1) := by
      rw [← hb, List.take_append_getElem hseen]
    have hmore : ∀ q ∈ more, q.length ≤ Framing.maxLength := fun q hq =>
      h.fits q (List.mem_cons_of_mem _ hq)
    simp only [List.drop_eq_nil_iff, hnext] at hpush
    split
    · next hlast =>
      rw [if_pos (Nat.le_of_eq hlast.symm)] at hpush
      refine ⟨hpush, ?_⟩
      rw [List.drop_eq_nil_of_le (Nat.le_of_eq hlast.symm), List.nil_append] at hbytes
      exact hbytes ▸ Midway.between hmore
    · next hnotlast =>
      have hlt : seen + 1 < (Framing.framed p).length := by omega
      rw [if_neg (Nat.not_le.2 hlt)] at hpush
      refine ⟨_, hpush, h.fits, ?_, rfl, hlt⟩
      rw [List.flatMap_cons, List.drop_append_of_le_length (Nat.le_of_lt hlt), hbytes]

end FrameReader

namespace Connection

variable {c : Connection} {inp inp' : FrameReader}

theorem reader?_withReader (h : c.reader? = some inp) :
    (c.withReader inp').reader? = some inp' := by
  cases hc : c.activity <;> simp_all [reader?, withReader]

theorem reader?_of_reading (c : Connection) (h : c.isReading = true) :
    ∃ inp, c.reader? = some inp := by
  cases hc : c.activity <;> simp_all [reader?, isReading]

theorem reader?_of_deaf (c : Connection) (h : c.isReading = false) : c.reader? = none := by
  cases hc : c.activity <;> simp_all [reader?, isReading]

theorem withReader_withReader (c : Connection) (inp inp' : FrameReader) :
    (c.withReader inp).withReader inp' = c.withReader inp' := by
  cases hc : c.activity <;> simp [withReader, hc]

theorem broken_withReader (c : Connection) (inp : FrameReader) (error : LinkError) :
    (c.withReader inp).broken error = c.broken error := by
  cases hc : c.activity <;> simp [withReader, broken, fail, stop, hc]

theorem reader?_broken (h : c.reader? = some inp) (error : LinkError) :
    (c.broken error).reader? = none := by
  cases hc : c.activity <;> simp_all [reader?, broken, fail, stop]

theorem withReader_reader (h : c.reader? = some inp) : c.withReader inp = c := by
  unfold reader? at h
  unfold withReader
  split at h
  · next inp₁ hc =>
    obtain rfl := Option.some.inj h
    rw [← hc]
  · next inp₁ out hc =>
    obtain rfl := Option.some.inj h
    rw [← hc]
  · cases h

theorem arrived_nil (c : Connection) : c.arrived [] = (c, []) := by
  cases h : c.reader? with
  | none => exact arrived_deaf h []
  | some inp => rw [arrived_part h rfl, withReader_reader h]

/-- Where the reader stands is all that matters of what it has read. -/
theorem arrived_withReader (h : c.reader? = some inp) {bytes more : Bytes}
    (hread : inp.read bytes = inp'.read more) :
    c.arrived bytes = (c.withReader inp').arrived more := by
  have h' : (c.withReader inp').reader? = some inp' := reader?_withReader h
  cases hmore : inp'.read more with
  | mk r result =>
    obtain ⟨result, rest⟩ := result
    rw [hmore] at hread
    cases result with
    | none => rw [arrived_part h hread, arrived_part h' hmore, withReader_withReader]
    | some result =>
      cases result with
      | ok payload => rw [arrived_payload h hread, arrived_payload h' hmore, withReader_withReader]
      | error fault => rw [arrived_fault h hread, arrived_fault h' hmore, broken_withReader]

/-- Bytes that come in at once are read like those that come one after another. -/
theorem arrived_append (c : Connection) (bytes more : Bytes) :
    c.arrived (bytes ++ more) = (c.arrived bytes).1.arrived ((c.arrived bytes).2 ++ more) := by
  induction c, bytes using arrived.induct with
  | case1 c bytes hreader => rw [arrived_deaf hreader bytes]
  | case2 c bytes inp hreader inp' rest hread =>
    obtain ⟨rfl, hmore⟩ := FrameReader.read_none hread
    rw [arrived_part hreader hread, List.nil_append]
    exact arrived_withReader hreader (hmore more)
  | case3 c bytes inp hreader inp' payload rest hread _ ih =>
    rw [arrived_payload hreader hread, ← ih,
      arrived_payload hreader (FrameReader.read_some hread more)]
  | case4 c bytes inp hreader inp' fault rest hread =>
    rw [arrived_fault hreader hread, arrived_fault hreader (FrameReader.read_some hread more),
      arrived_deaf (reader?_broken hreader _)]

/-- A connection that goes on reading has read all. -/
theorem arrived_rest (c : Connection) (bytes : Bytes)
    (h : (c.arrived bytes).1.reader? = some inp) : (c.arrived bytes).2 = [] := by
  induction c, bytes using arrived.induct with
  | case1 c bytes hreader =>
    rw [arrived_deaf hreader] at h
    cases hreader.symm.trans h
  | case2 c bytes inp hreader inp' rest hread =>
    rw [arrived_part hreader hread]
    exact (FrameReader.read_none hread).1
  | case3 c bytes inp hreader inp' payload rest hread _ ih =>
    rw [arrived_payload hreader hread] at h ⊢
    exact ih h
  | case4 c bytes inp hreader inp' fault rest hread =>
    rw [arrived_fault hreader hread] at h
    cases (reader?_broken hreader _).symm.trans h

end Connection

end RpcClient
