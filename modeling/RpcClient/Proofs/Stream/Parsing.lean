/-
Every stream is read in one way. Bytes are the frames that they begin with, and a rest with
no frame in front (`Framing.Parses`); this says nothing of how they come in, and there is
just one way for it (`Parses.unique`).

What a read answers is what the bytes say that have come in by the instant up to which it is
waited for (`Framing.outcome`, `Arriving.await`), in whatever parts they have come: up to
there the reader has taken the front of them, and it waits only when it has taken them all
and the feeder waits too (`Still`). So reading again and again gives the frames and then
what the rest says.
-/
import RpcClient.Proofs.Stream.InSync
import RpcClient.Proofs.Stream.Settled

namespace RpcClient

theorem Bytes.ofBig_lt (bytes : Bytes) : ofBig bytes < 256 ^ bytes.length := by
  have hsame := ofBig_big bytes.length (ofBig bytes)
  rw [big_ofBig] at hsame
  rw [hsame]
  exact Nat.mod_lt _ (Nat.pow_pos (by decide))

namespace Framing

/-! ## What bytes say -/

/-- What a stream that has ended is found to be. -/
def ending (ended : Bool) : Option LinkError := if ended then some .closed else none

/-- What a reader finds that has nothing before it but some bytes, and perhaps the end of
the stream behind them. -/
def outcome (bytes : Bytes) (ended : Bool) : Option (Except LinkError Bytes) :=
  match first? bytes with
  | some result => some (result.mapError .invalidFrame)
  | none => (ending ended).map .error

/-- What may be left behind the last frame, and what is found there. -/
inductive Leftover (ended : Bool) : Bytes → Option LinkError → Prop
  /-- A length above the limit, whatever is behind it. -/
  | tooLong {n : Nat} {body : Bytes} (long : maxLength < n) (fits : n < 2 ^ 32) :
    Leftover ended (Bytes.big 4 n ++ body) (some (.invalidFrame (.tooLong n)))
  /-- Not even a length. -/
  | short {rest : Bytes} (few : rest.length < 4) : Leftover ended rest (ending ended)
  /-- A front part of a frame. -/
  | cut {rest payload : Bytes} (fits : payload.length ≤ maxLength)
      (front : rest <+: framed payload) (strict : rest ≠ framed payload) :
    Leftover ended rest (ending ended)

/-- Bytes are frames, and then something that ends the reading. -/
structure Parses (bytes : Bytes) (ended : Bool) (frames : List Bytes) (last : Option LinkError) :
    Prop where
  fits : ∀ payload ∈ frames, payload.length ≤ maxLength
  split : ∃ rest, bytes = frames.flatMap framed ++ rest ∧ Leftover ended rest last

variable {bytes rest : Bytes} {ended : Bool} {last : Option LinkError}

theorem first?_append {result : Except FrameFault Bytes} (h : first? bytes = some result)
    (more : Bytes) : first? (bytes ++ more) = some result := by
  rw [← FrameReader.first?_eq] at h ⊢
  rcases hread : FrameReader.start.read bytes with ⟨r, found, rest⟩
  rw [hread] at h
  dsimp only at h
  subst h
  rw [FrameReader.read_some hread more]

theorem first?_framed {payload : Bytes} (fits : payload.length ≤ maxLength) (more : Bytes) :
    first? (framed payload ++ more) = some (.ok payload) := by
  rw [← FrameReader.first?_eq, FrameReader.start_read_fits fits more]

theorem outcome_framed {payload : Bytes} (fits : payload.length ≤ maxLength) (more : Bytes) :
    outcome (framed payload ++ more) ended = some (.ok payload) := by
  rw [outcome, first?_framed fits]
  rfl

theorem first?_tooLong {n : Nat} (long : maxLength < n) (fits : n < 2 ^ 32) (body : Bytes) :
    first? (Bytes.big 4 n ++ body) = some (.error (.tooLong n)) := by
  have hlength : (Bytes.big 4 n).length = 4 := FrameReader.length_big n
  have hvalue : Bytes.ofBig ((Bytes.big 4 n ++ body).take 4) = n := by
    rw [List.take_left' hlength, Bytes.ofBig_big]
    exact Nat.mod_eq_of_lt fits
  have hmany : ¬ (Bytes.big 4 n ++ body).length < 4 := by
    rw [List.length_append, hlength]
    omega
  simp only [first?, if_neg hmany, hvalue, if_pos long]

/-- In a front part of a frame there is no whole one. -/
theorem first?_cut {payload : Bytes} (fits : payload.length ≤ maxLength)
    (front : rest <+: framed payload) (strict : rest ≠ framed payload) : first? rest = none := by
  cases hfirst : first? rest with
  | none => rfl
  | some result =>
    obtain ⟨more, hmore⟩ := front
    have hwhole := first?_append hfirst more
    have hframed := first?_framed fits []
    rw [List.append_nil] at hframed
    rw [hmore, hframed, Option.some.injEq] at hwhole
    -- The frame that was found would end before the cut.
    rw [← hwhole, ← FrameReader.first?_eq] at hfirst
    rcases hread : FrameReader.start.read rest with ⟨r, found, left⟩
    rw [hread] at hfirst
    dsimp only at hfirst
    subst hfirst
    obtain ⟨-, hbytes, -⟩ := FrameReader.start_read_ok hread
    have hlength := congrArg List.length hmore
    simp only [hbytes, List.length_append] at hlength
    have hnone : left = [] := List.length_eq_zero_iff.1 (by omega)
    exact absurd (by rw [hbytes, hnone, List.append_nil]) strict

/-- What is left says what is found. -/
theorem Leftover.outcome (h : Leftover ended rest last) :
    Framing.outcome rest ended = last.map .error := by
  cases h with
  | tooLong long fits =>
    rw [Framing.outcome, first?_tooLong long fits]
    rfl
  | short few =>
    rw [Framing.outcome, first?, if_pos few]
  | cut fits front strict =>
    rw [Framing.outcome, first?_cut fits front strict]

/-- The end of a stream is an error, if not an earlier one. -/
theorem Leftover.error (h : Leftover true rest last) : ∃ error, last = some error := by
  cases h <;> exact ⟨_, rfl⟩

/-- The first four bytes, if there are so many, are those of a number. -/
theorem split_length (many : ¬ rest.length < 4) :
    rest = Bytes.big 4 (Bytes.ofBig (rest.take 4)) ++ rest.drop 4 ∧
      Bytes.ofBig (rest.take 4) < 2 ^ 32 := by
  have hfour : (rest.take 4).length = 4 := by
    rw [List.length_take]
    omega
  have hbig := Bytes.big_ofBig (rest.take 4)
  have hlt := Bytes.ofBig_lt (rest.take 4)
  rw [hfour] at hbig hlt
  exact ⟨by rw [hbig, List.take_append_drop], hlt⟩

/-- Where no frame is in front, one of these is left. -/
theorem leftover_of_outcome (h : outcome rest ended = last.map .error) :
    Leftover ended rest last := by
  by_cases few : rest.length < 4
  · rw [outcome, first?, if_pos few] at h
    obtain rfl := Option.map_injective (fun _ _ => Except.error.inj) h
    exact .short few
  · obtain ⟨hsplit, hlt⟩ := split_length few
    simp only [outcome, first?, if_neg few] at h
    generalize Bytes.ofBig (rest.take 4) = n at *
    split at h
    · next result hresult =>
      split at hresult
      · next long =>
        cases hresult
        cases last with
        | none => cases h
        | some error =>
          cases h
          rw [hsplit]
          exact .tooLong long hlt
      · split at hresult
        · cases hresult
        · cases hresult
          cases last <;> cases h
    · next hresult =>
      obtain rfl := Option.map_injective (fun _ _ => Except.error.inj) h
      split at hresult
      · cases hresult
      · next fits =>
        split at hresult
        · next less =>
          -- Any bytes that are missing make a frame of it.
          have hlength : (rest.drop 4 ++ List.replicate (4 + n - rest.length) 0).length = n := by
            rw [List.length_append, List.length_drop, List.length_replicate]
            omega
          have hframed : rest ++ List.replicate (4 + n - rest.length) 0 =
              framed (rest.drop 4 ++ List.replicate (4 + n - rest.length) 0) := by
            rw [framed, hlength, ← List.append_assoc, ← hsplit]
          have hstrict : rest ≠ framed (rest.drop 4 ++ List.replicate (4 + n - rest.length) 0) := by
            intro hsame
            have hwhole := congrArg List.length hsame
            rw [FrameReader.length_framed, hlength] at hwhole
            omega
          exact .cut (hlength.symm ▸ Nat.le_of_not_lt fits) ⟨_, hframed⟩ hstrict
        · cases hresult

/-- **Bytes are parsed in one way.** -/
theorem Parses.unique {frames frames' : List Bytes} {last' : Option LinkError}
    (h : Parses bytes ended frames last) (h' : Parses bytes ended frames' last') :
    frames = frames' ∧ last = last' := by
  induction frames generalizing bytes frames' with
  | nil =>
    obtain ⟨rest, hsplit, hleft⟩ := h.split
    obtain rfl : bytes = rest := by simpa using hsplit
    have hsays := hleft.outcome
    obtain ⟨rest', hsplit', hleft'⟩ := h'.split
    cases frames' with
    | nil =>
      obtain rfl : bytes = rest' := by simpa using hsplit'
      have hsame := hsays.symm.trans hleft'.outcome
      exact ⟨rfl, Option.map_injective (fun _ _ => Except.error.inj) hsame⟩
    | cons payload frames' =>
      rw [List.flatMap_cons, List.append_assoc] at hsplit'
      rw [hsplit', outcome_framed (h'.fits _ List.mem_cons_self)] at hsays
      cases last <;> cases hsays
  | cons payload frames ih =>
    obtain ⟨rest, hsplit, hleft⟩ := h.split
    obtain ⟨rest', hsplit', hleft'⟩ := h'.split
    rw [List.flatMap_cons, List.append_assoc] at hsplit
    have hsays : outcome bytes ended = some (.ok payload) := by
      rw [hsplit, outcome_framed (h.fits _ List.mem_cons_self)]
    cases frames' with
    | nil =>
      obtain rfl : bytes = rest' := by simpa using hsplit'
      rw [hleft'.outcome] at hsays
      cases last' <;> cases hsays
    | cons payload' frames' =>
      rw [List.flatMap_cons, List.append_assoc] at hsplit'
      rw [hsplit', outcome_framed (h'.fits _ List.mem_cons_self)] at hsays
      obtain rfl : payload' = payload := Except.ok.inj (Option.some.inj hsays)
      have hmore : frames.flatMap framed ++ rest = frames'.flatMap framed ++ rest' :=
        List.append_cancel_left (hsplit.symm.trans hsplit')
      obtain ⟨rfl, rfl⟩ := ih
        ⟨fun q hq => h.fits q (List.mem_cons_of_mem _ hq), rest, rfl, hleft⟩
        ⟨fun q hq => h'.fits q (List.mem_cons_of_mem _ hq), rest', hmore, hleft'⟩
      exact ⟨rfl, rfl⟩

end Framing

open Framing (framed first? outcome ending)

namespace Stage

/-! ## What has come in by an instant -/

/-- The part of a plan that is carried out by the instant `limit`, if nothing holds it up. -/
def within (limit : Nat) : (now : Nat) → List Feed → List Feed
  | _, [] => []
  | now, .wait span :: plan =>
    if span.after now ≤ limit then within limit (span.after now) plan else []
  | now, .resume time :: plan =>
    if time ≤ limit then within limit (max now time) plan else []
  | now, first :: plan => first :: within limit now plan

/-- When a plan has been carried out, if nothing holds it up. -/
def lastInstant : (now : Nat) → List Feed → Nat
  | now, [] => now
  | now, .wait span :: plan => lastInstant (span.after now) plan
  | now, .resume time :: plan => lastInstant (max now time) plan
  | now, _ :: plan => lastInstant now plan

/-- The bytes to be read by an instant. -/
def aheadBy (limit now : Nat) (s : Stage) : Bytes := incoming s.inbound (within limit now s.plan)

/-- Whether the stream has ended by an instant. -/
def endedBy (limit now : Nat) (s : Stage) : Bool :=
  s.inbound.closed || finishes (within limit now s.plan)

theorem le_lastInstant (now : Nat) (plan : List Feed) : now ≤ lastInstant now plan := by
  induction plan generalizing now with
  | nil => exact Nat.le_refl now
  | cons first plan ih =>
    cases first with
    | wait span => exact Nat.le_trans (Nat.le_add_right _ _) (ih (span.after now))
    | resume time => exact Nat.le_trans (Nat.le_max_left _ _) (ih (max now time))
    | bytes | finish => exact ih now

/-- In the end a plan brings all that it has. -/
theorem within_all {limit now : Nat} {plan : List Feed} (enough : lastInstant now plan ≤ limit) :
    arriving (within limit now plan) = arriving plan ∧
      finishes (within limit now plan) = finishes plan := by
  induction plan generalizing now with
  | nil => exact ⟨rfl, rfl⟩
  | cons first plan ih =>
    cases first with
    | wait span =>
      have hreached := Nat.le_trans (le_lastInstant (span.after now) plan) enough
      simp only [within, if_pos hreached]
      exact ih enough
    | resume time =>
      have hreached := Nat.le_trans (le_lastInstant (max now time) plan) enough
      simp only [within, if_pos (Nat.le_trans (Nat.le_max_right _ _) hreached)]
      exact ih enough
    | bytes bytes =>
      obtain ⟨hbytes, hfinishes⟩ := ih enough
      exact ⟨congrArg (bytes ++ ·) hbytes, hfinishes⟩
    | finish => exact ⟨rfl, rfl⟩

/-- The feeder brings nothing else than what is to come by an instant. -/
theorem feed_within {limit now : Nat} (le : now ≤ limit) (plan : List Feed) (p : Pipe) :
    incoming (feed now plan p).1 (within limit now (feed now plan p).2) =
        incoming p (within limit now plan) ∧
      ((feed now plan p).1.closed || finishes (within limit now (feed now plan p).2)) =
        (p.closed || finishes (within limit now plan)) := by
  induction plan generalizing p with
  | nil => exact ⟨rfl, rfl⟩
  | cons first plan ih =>
    cases first with
    | bytes bytes =>
      cases hclosed : p.closed with
      | true =>
        obtain ⟨hbytes, hended⟩ := ih p
        simp only [feed, Pipe.write_closed hclosed, hbytes, hended]
        simp [incoming, hclosed]
      | false =>
        rw [feed, Pipe.write_open hclosed]
        cases hrest : bytes.drop p.space with
        | nil =>
          have hall : bytes.take p.space = bytes := by
            have hsplit := List.take_append_drop p.space bytes
            rwa [hrest, List.append_nil] at hsplit
          obtain ⟨hbytes, hended⟩ := ih { p with buffer := p.buffer ++ bytes.take p.space }
          simp only [hbytes, hended]
          simp [hall, incoming, hclosed, within, arriving, finishes]
        | cons b rest =>
          simp only [incoming, hclosed, within, arriving, finishes, Bool.false_eq_true, if_false,
            List.append_assoc]
          rw [← hrest, ← List.append_assoc (bytes.take p.space), List.take_append_drop]
          exact ⟨rfl, trivial⟩
    | wait span =>
      simp only [feed]
      split
      · next none =>
        have hsame : span.after now = now := Nat.le_antisymm none (Nat.le_add_right _ _)
        obtain ⟨hbytes, hended⟩ := ih p
        simp only [within, hsame, if_pos le]
        exact ⟨hbytes, hended⟩
      · next later =>
        have hmax : max now (span.after now) = span.after now := by omega
        constructor <;> simp only [within, hmax]
    | resume time =>
      simp only [feed]
      split
      · next passed =>
        obtain ⟨hbytes, hended⟩ := ih p
        simp only [within, if_pos (Nat.le_trans passed le), Nat.max_eq_left passed]
        exact ⟨hbytes, hended⟩
      · exact ⟨rfl, rfl⟩
    | finish =>
      obtain ⟨hbytes, hended⟩ := ih p.close
      rw [feed, hbytes, hended]
      simp [incoming, Pipe.close, within, arriving, finishes]

theorem feed_capacity (now : Nat) (plan : List Feed) (p : Pipe) :
    (feed now plan p).1.capacity = p.capacity := by
  induction plan generalizing p with
  | nil => rfl
  | cons first plan ih =>
    cases first with
    | bytes bytes =>
      cases hclosed : p.closed with
      | true =>
        simp only [feed, Pipe.write_closed hclosed]
        exact ih p
      | false =>
        rw [feed, Pipe.write_open hclosed]
        cases bytes.drop p.space with
        | nil => exact ih _
        | cons b rest => rfl
    | wait span | resume time =>
      simp only [feed]
      split
      · exact ih p
      · rfl
    | finish => exact ih p.close

variable {limit now : Nat}

/-- A feeder that has stopped though the pipe is empty waits, or is done: until it goes on,
what it brings by an instant stays the same. -/
theorem FeedStops.within_later {p : Pipe} {plan : List Feed} (h : FeedStops now p plan)
    (roomy : 0 < p.capacity) (empty : p.buffer = []) {time : Nat}
    (before : ∀ due, feedDue? plan = some due → time ≤ due) (limit : Nat) :
    within limit time plan = within limit now plan := by
  cases h with
  | done => rfl
  | full isOpen full more =>
    rw [Pipe.space, empty, List.length_nil] at full
    omega
  | @waits due plan later =>
    have htime := Nat.max_eq_right (before due rfl)
    have hnow := Nat.max_eq_right (Nat.le_of_lt later)
    simp only [within, htime, hnow]

/-- By now it brings nothing. -/
theorem FeedStops.within_now {p : Pipe} {plan : List Feed} (h : FeedStops now p plan)
    (roomy : 0 < p.capacity) (empty : p.buffer = []) : within now now plan = [] := by
  cases h with
  | done => rfl
  | full isOpen full more =>
    rw [Pipe.space, empty, List.length_nil] at full
    omega
  | waits later => simp only [within, if_neg (Nat.not_le.2 later)]

/-! ## One read -/

/-- How far a read has come on bytes of which it has not yet taken the last `more`. -/
inductive Progress (bytes : Bytes) (ended : Bool) (more : Bytes) : Operation → Prop
  | going {taken : Bytes} {reader : FrameReader} (split : bytes = taken ++ more)
      (reading : FrameReader.start.read taken = (reader, none, [])) :
    Progress bytes ended more (.read reader none)
  | done {result : Except LinkError Bytes} (answer : outcome bytes ended = some result)
      (left : ∀ payload, result = .ok payload → bytes = framed payload ++ more) :
    Progress bytes ended more (.readDone result)

/-- A read without limit that follows the bytes that come in by an instant. -/
structure Follows (limit : Nat) (bytes : Bytes) (ended : Bool) (now : Nat) (s : Stage) :
    Prop where
  roomy : 0 < s.inbound.capacity
  ending : s.endedBy limit now = ended
  progress : Progress bytes ended (s.aheadBy limit now) s.operation

variable {s : Stage} {bytes : Bytes} {ended : Bool}

theorem Follows.begin (roomy : 0 < s.inbound.capacity) :
    Follows limit (s.aheadBy limit now) (s.endedBy limit now) now (s.beginRead now none) :=
  ⟨roomy, rfl, .going (List.nil_append _).symm rfl⟩

theorem Follows.around (h : Follows limit bytes ended now s) (le : now ≤ limit) :
    Follows limit bytes ended now (s.around now) := by
  obtain ⟨hbytes, hended⟩ := feed_within le s.plan s.inbound
  have hahead : (s.around now).aheadBy limit now = s.aheadBy limit now := hbytes
  refine ⟨?_, hended.trans h.ending, hahead ▸ h.progress⟩
  exact Nat.lt_of_lt_of_eq h.roomy (feed_capacity now s.plan s.inbound).symm

theorem Follows.advance (h : Follows limit bytes ended now s) :
    Follows limit bytes ended now (s.advance now).1 := by
  have hprogress := h.progress
  generalize hoperation : s.operation = operation at hprogress
  cases hprogress with
  | done answer left =>
    simp only [Stage.advance, hoperation]
    exact h
  | @going taken reader split reading =>
    obtain ⟨-, hmore⟩ := FrameReader.read_none reading
    let later := if s.inbound.closed then [] else arriving (within limit now s.plan)
    have hbytes : bytes = taken ++ s.inbound.buffer ++ later := by
      rw [split, aheadBy, incoming, List.append_assoc]
    rcases hread : reader.read s.inbound.buffer with ⟨r, result, rest⟩
    have hwhole : FrameReader.start.read (taken ++ s.inbound.buffer) = (r, result, rest) := by
      rw [hmore, hread]
    have hfirst : first? (taken ++ s.inbound.buffer) = result := by
      rw [← FrameReader.first?_eq, hwhole]
    cases result with
    | some result =>
      have hsays : outcome bytes ended = some (result.mapError .invalidFrame) := by
        rw [outcome, hbytes, Framing.first?_append hfirst]
      cases result with
      | ok payload =>
        obtain ⟨-, hframed, -⟩ := FrameReader.start_read_ok hwhole
        have hpoll : reader.poll s.inbound =
            (r, { s.inbound with buffer := rest }, some (.ok payload)) := by
          rw [FrameReader.poll, hread]
        simp only [Stage.advance, hoperation, hpoll]
        refine ⟨h.roomy, h.ending, .done hsays fun payload' hpayload => ?_⟩
        cases hpayload
        rw [hbytes, hframed, List.append_assoc]
        rfl
      | error fault =>
        have hpoll : reader.poll s.inbound =
            (r, { s.inbound with buffer := rest }, some (.error (.invalidFrame fault))) := by
          rw [FrameReader.poll, hread]
        simp only [Stage.advance, hoperation, hpoll]
        exact ⟨h.roomy, h.ending, .done hsays fun _ hpayload => by cases hpayload⟩
    | none =>
      obtain ⟨rfl, -⟩ := FrameReader.read_none hread
      have hpoll : reader.poll s.inbound = (r, { s.inbound with buffer := [] },
          if s.inbound.closed then some (.error .closed) else none) := by
        rw [FrameReader.poll, hread]
      simp only [Stage.advance, hoperation, hpoll]
      cases hclosed : s.inbound.closed with
      | true =>
        have hall : bytes = taken ++ s.inbound.buffer := by
          simpa [later, hclosed] using hbytes
        have hended : ended = true := by
          rw [← h.ending, endedBy, hclosed, Bool.true_or]
        refine ⟨h.roomy, by simpa [endedBy, hclosed] using h.ending,
          .done ?_ fun _ hpayload => by cases hpayload⟩
        rw [outcome, hall, hfirst, hended]
        rfl
      | false =>
        refine ⟨h.roomy, by simpa [endedBy, hclosed] using h.ending, .going ?_ hwhole⟩
        rw [hbytes]
        simp [aheadBy, incoming, later, hclosed]

theorem Follows.cut (h : Follows limit bytes ended now s) : s.cut now = s := by
  have hprogress := h.progress
  generalize hoperation : s.operation = operation at hprogress
  cases hprogress <;> simp only [Stage.cut, hoperation]

theorem Follows.turns (h : Follows limit bytes ended now s) (le : now ≤ limit) (most : Nat) :
    Follows limit bytes ended now (s.turns now most) := by
  induction most generalizing s with
  | zero => exact h
  | succ most ih =>
    have hnext := (h.around le).advance
    rw [turns_succ]
    split
    · exact ih hnext
    · exact hnext

theorem Follows.settle (h : Follows limit bytes ended now s) (le : now ≤ limit) :
    Follows limit bytes ended now (s.settle now) := by
  have hturns := h.turns le s.load
  rw [Stage.settle, hturns.cut]
  exact hturns

theorem Follows.attempt (h : Follows limit bytes ended now s) (le : now ≤ limit) :
    Follows limit bytes ended now (s.attempt now) := by
  have hnext := h.advance
  rw [Stage.attempt, hnext.cut]
  exact hnext.settle le

/-- A read that is not done when nothing more happens has taken all that was there. -/
theorem Follows.waiting (h : Follows limit bytes ended now s) (still : Still now s)
    (busy : s.operation.isBusy = true) :
    s.inbound.closed = false ∧ s.inbound.buffer = [] := by
  have hprogress := h.progress
  have hunmoved := still.unmoved
  generalize hoperation : s.operation = operation at hprogress
  cases hprogress with
  | done answer left => simp [hoperation, Operation.isBusy] at busy
  | going split reading =>
    have hbusy : (s.advance now).1.operation.isBusy = true := by
      rw [hunmoved]
      exact busy
    obtain ⟨r, -, isOpen, hadvance⟩ := advance_reading hoperation hbusy
    rw [hunmoved, Prod.mk.injEq] at hadvance
    exact ⟨isOpen, List.length_eq_zero_iff.1 (bne_eq_false_iff_eq.1 hadvance.2.symm).symm⟩

/-- Time passes, and nothing comes in before the feeder goes on. -/
theorem Follows.later (h : Follows limit bytes ended now s) (still : Still now s)
    (busy : s.operation.isBusy = true) {time : Nat}
    (before : ∀ due, feedDue? s.plan = some due → time ≤ due) :
    Follows limit bytes ended time s := by
  obtain ⟨-, hempty⟩ := h.waiting still busy
  have hsame := still.feeder.within_later h.roomy hempty before limit
  refine ⟨h.roomy, ?_, ?_⟩
  · rw [endedBy, hsame]
    exact h.ending
  · rw [aheadBy, hsame]
    exact h.progress

/-- What is found when a wait ends at its limit. -/
theorem Follows.at_limit (h : Follows now bytes ended now s) (still : Still now s)
    (busy : s.operation.isBusy = true) : outcome bytes ended = none := by
  obtain ⟨isOpen, hempty⟩ := h.waiting still busy
  have hnothing := still.feeder.within_now h.roomy hempty
  have hended : ended = false := by
    rw [← h.ending, endedBy, isOpen, hnothing]
    rfl
  have hprogress := h.progress
  generalize hoperation : s.operation = operation at hprogress
  cases hprogress with
  | done answer left => simp [hoperation, Operation.isBusy] at busy
  | going split reading =>
    rw [aheadBy, incoming, hempty, hnothing] at split
    simp only [arriving, ite_self, List.append_nil] at split
    rw [outcome, split, FrameReader.first?_of_none reading, hended]
    rfl

/-- The clock does not go on past the instant at which the feeder does. -/
theorem next_le_due {due : Nat} (h : feedDue? s.plan = some due) :
    ∃ time, s.next? = some time ∧ time ≤ due := by
  simp only [next?, h, Option.toList_some]
  generalize hlist : [due] ++ _ ++ _ = times
  have hmem : due ∈ times := by simp [← hlist]
  cases hmin : times.min? with
  | none =>
    rw [List.min?_eq_none_iff.1 hmin] at hmem
    exact absurd hmem List.not_mem_nil
  | some time => exact ⟨time, rfl, (List.le_min?_iff hmin).1 (Nat.le_refl time) due hmem⟩

/-- **What a read answers is what the bytes say that have come in.** -/
theorem Follows.await (h : Follows limit bytes ended now s)
    (still : s.operation.isBusy = true → Still now s) (le : now ≤ limit) :
    let result := clockwork.await readResult? limit now s
    result.1 = outcome bytes ended ∧ result.2.1 ≤ limit ∧
      Follows limit bytes ended result.2.1 result.2.2 := by
  induction hleft : limit - now using Nat.strongRecOn generalizing now s with
  | ind left ih =>
    cases hfind : readResult? s with
    | some result =>
      rw [Clockwork.await_found clockwork hfind]
      refine ⟨?_, le, h⟩
      have hprogress := h.progress
      rw [readResult?] at hfind
      generalize s.operation = operation at hprogress hfind
      cases hprogress with
      | going => cases hfind
      | done answer left => rw [answer, ← hfind]
    | none =>
      have busy : s.operation.isBusy = true := by
        have hprogress := h.progress
        rw [readResult?] at hfind
        generalize s.operation = operation at hprogress hfind
        cases hprogress with
        | going => rfl
        | done => cases hfind
      rcases Nat.lt_or_eq_of_le le with before | rfl
      · let t := max (now + 1) (min limit ((s.next?).getD limit))
        have hstep : clockwork.await readResult? limit now s =
            clockwork.await readResult? limit t (s.settle t) := by
          rw [Clockwork.await, hfind]
          simp only [before, if_true]
          rfl
        have hdue : ∀ due, feedDue? s.plan = some due → t ≤ due := by
          intro due hdue
          obtain ⟨time, hnext, hle⟩ := next_le_due hdue
          have hlater := (still busy).feeder.due_later hdue
          simp only [t, hnext, Option.getD_some]
          omega
        have hnext := (h.later (still busy) busy hdue).settle (by omega : t ≤ limit)
        rw [hstep]
        exact ih (limit - t) (by omega) hnext settle_still (by omega) rfl
      · rw [Clockwork.await, hfind]
        simp only [Nat.lt_irrefl, if_false]
        exact ⟨(h.at_limit (still busy) busy).symm, Nat.le_refl _, h⟩

/-! ## One read after another -/

variable {patience : Nat}

/-- A payload that was read stood in front of what is still to come. -/
theorem read_payload {payload : Bytes} {now' : Nat} {s' : Stage}
    (h : s.read now none patience = (some (.ok payload), now', s')) :
    s.ahead = framed payload ++ s'.ahead ∧ payload.length ≤ Framing.maxLength := by
  obtain ⟨taken, _, hmoves, htook⟩ := s.read_took now none patience
  rw [h] at hmoves htook
  cases htook with
  | frame fits => exact ⟨hmoves.inbound, fits⟩

/-- What a read answers, and what it leaves. -/
theorem read_follows (roomy : 0 < s.inbound.capacity) (le : now ≤ patience)
    {result : Option (Except LinkError Bytes)} {now' : Nat} {s' : Stage}
    (h : s.read now none patience = (result, now', s')) :
    result = outcome (s.aheadBy patience now) (s.endedBy patience now) ∧ now' ≤ patience ∧
      0 < s'.inbound.capacity ∧ s'.endedBy patience now' = s.endedBy patience now ∧
      ∀ payload, result = some (.ok payload) →
        s.aheadBy patience now = framed payload ++ s'.aheadBy patience now' := by
  obtain ⟨hanswer, hle, hfollows⟩ := ((Follows.begin roomy).attempt le).await settle_still le
  have hresult : readResult? s' = result := clockwork.await_answer h
  rw [read] at h
  simp only [h] at hanswer hle hfollows
  refine ⟨hanswer, hle, hfollows.roomy, hfollows.ending, fun payload hpayload => ?_⟩
  have hprogress := hfollows.progress
  rw [readResult?] at hresult
  generalize s'.operation = operation at hprogress hresult
  cases hprogress with
  | going => cases hresult.trans hpayload
  | done answer left => exact left payload (Option.some.inj (hresult.trans hpayload))

/-- Reads until something else than a payload is found: the payloads, and what that is. -/
def readAll (patience now : Nat) (s : Stage) : List Bytes × Option LinkError :=
  match _h : s.read now none patience with
  | (some (.ok payload), now', s') =>
    let (frames, last) := readAll patience now' s'
    (payload :: frames, last)
  | (some (.error error), _, _) => ([], some error)
  | (none, _, _) => ([], none)
termination_by s.ahead.length
decreasing_by
  rw [(read_payload _h).1, List.length_append, FrameReader.length_framed]
  omega

theorem readAll_eq {result : Option (Except LinkError Bytes)} {now' : Nat} {s' : Stage}
    (h : s.read now none patience = (result, now', s')) :
    s.readAll patience now =
      match result with
      | some (.ok payload) =>
        (payload :: (s'.readAll patience now').1, (s'.readAll patience now').2)
      | some (.error error) => ([], some error)
      | none => ([], none) := by
  rw [readAll]
  split <;>
    · next heq =>
      rw [h] at heq
      cases heq
      rfl

/-- What is read parses the bytes that have come in. -/
theorem readAll_parses (roomy : 0 < s.inbound.capacity) (le : now ≤ patience) :
    Framing.Parses (s.aheadBy patience now) (s.endedBy patience now) (s.readAll patience now).1
      (s.readAll patience now).2 := by
  induction hlength : s.ahead.length using Nat.strongRecOn generalizing now s with
  | ind length ih =>
    rcases h : s.read now none patience with ⟨result, now', s'⟩
    obtain ⟨hanswer, hle, hroomy, hended, hleft⟩ := read_follows roomy le h
    rw [readAll_eq h]
    match result with
    | some (.ok payload) =>
      obtain ⟨hahead, fits⟩ := read_payload h
      rw [hahead, List.length_append, FrameReader.length_framed] at hlength
      have hrest := ih s'.ahead.length (by omega) hroomy hle rfl
      obtain ⟨rest, hsplit, hleftover⟩ := hrest.split
      refine ⟨List.forall_mem_cons.2 ⟨fits, hrest.fits⟩, rest, ?_, hended ▸ hleftover⟩
      rw [hleft payload rfl, hsplit, List.flatMap_cons, List.append_assoc]
    | some (.error error) =>
      exact ⟨fun p hp => absurd hp List.not_mem_nil, _, (List.nil_append _).symm,
        Framing.leftover_of_outcome hanswer.symm⟩
    | none =>
      exact ⟨fun p hp => absurd hp List.not_mem_nil, _, (List.nil_append _).symm,
        Framing.leftover_of_outcome hanswer.symm⟩

/-- **Framing parses every byte stream in one way.** Whatever comes in, and in whatever parts
and at whatever times it does: if the stream ends, reading again and again gives frames and
then one error, and these are the only ones that parse the bytes as a whole. Each frame is no
longer than the limit; behind the last one there is a length above the limit, which the error
names, or fewer than four bytes or a front part of a frame, and the error says that the stream
has ended.

For a length above the limit no more is waited for: as soon as its four bytes have come in, the
error is there, whatever comes behind them or is still to come. -/
theorem every_stream_parses_once (s : Stage) (now patience : Nat)
    (roomy : 0 < s.inbound.capacity) (le : now ≤ patience) :
    ((s.inbound.closed || finishes s.plan) = true → lastInstant now s.plan ≤ patience →
      ∃ frames error, s.readAll patience now = (frames, some error) ∧
        Framing.Parses s.ahead true frames (some error) ∧
        ∀ frames' last', Framing.Parses s.ahead true frames' last' →
          frames' = frames ∧ last' = some error) ∧
    ∀ frames n body, (∀ payload ∈ frames, payload.length ≤ Framing.maxLength) →
      Framing.maxLength < n → n < 2 ^ 32 →
      s.aheadBy patience now = frames.flatMap framed ++ (Bytes.big 4 n ++ body) →
      s.readAll patience now = (frames, some (.invalidFrame (.tooLong n))) := by
  have hparses := readAll_parses roomy le
  constructor
  · intro ends enough
    obtain ⟨harriving, hfinishes⟩ := within_all enough
    have hahead : s.aheadBy patience now = s.ahead := by
      rw [aheadBy, ahead, incoming, incoming, harriving]
    have hended : s.endedBy patience now = true := by rw [endedBy, hfinishes, ends]
    rw [hahead, hended] at hparses
    obtain ⟨rest, hsplit, hleftover⟩ := hparses.split
    obtain ⟨error, herror⟩ := hleftover.error
    rw [herror] at hparses
    exact ⟨_, error, Prod.ext rfl herror, hparses, fun frames' last' h => h.unique hparses⟩
  · intro frames n body fits long small hbytes
    obtain ⟨hframes, hlast⟩ := hparses.unique ⟨fits, _, hbytes, .tooLong long small⟩
    exact Prod.ext hframes hlast

/-- Two frames in parts, the second one without payload, and then a length above the limit,
whose payload begins to come some time later. -/
def chunked : Stage where
  inbound := { capacity := 3 }
  plan := [.bytes [0, 0], .wait (.ofMillis 2), .bytes [0, 2, 7], .bytes [8, 0, 0, 0, 0],
    .wait (.ofMillis 2), .bytes [6, 0x40, 0, 1], .wait (.ofMillis 5), .bytes [9], .finish]
  outbound := {}

theorem chunked_parses_once :
    0 < chunked.inbound.capacity ∧ (chunked.inbound.closed || finishes chunked.plan) = true ∧
    lastInstant 0 chunked.plan ≤ 9 ∧
    (∃ frames error, chunked.readAll 9 0 = (frames, some error) ∧
      Framing.Parses chunked.ahead true frames (some error)) ∧
    chunked.aheadBy 4 0 = [[7, 8], []].flatMap framed ++
      (Bytes.big 4 (Framing.maxLength + 1) ++ []) ∧
    chunked.readAll 4 0 =
      ([[7, 8], []], some (.invalidFrame (.tooLong (Framing.maxLength + 1)))) := by
  have roomy : 0 < chunked.inbound.capacity := by decide
  have ends : (chunked.inbound.closed || finishes chunked.plan) = true := by decide
  have enough : lastInstant 0 chunked.plan ≤ 9 := by decide
  have hahead : chunked.aheadBy 4 0 = [[7, 8], []].flatMap framed ++
      (Bytes.big 4 (Framing.maxLength + 1) ++ []) := by decide
  obtain ⟨frames, error, hall, hparses, -⟩ :=
    (every_stream_parses_once chunked 0 9 roomy (by decide)).1 ends enough
  have hlong := (every_stream_parses_once chunked 0 4 roomy (by decide)).2 [[7, 8], []] _ []
    (by decide) (Nat.lt_succ_self _) (by decide) hahead
  exact ⟨roomy, ends, enough, ⟨frames, error, hall, hparses⟩, hahead, hlong⟩

/-- A stream that ends behind its first byte. -/
def loneByte : Stage where
  inbound := {}
  plan := [.bytes [0xff], .finish]
  outbound := {}

theorem loneByte_read : loneByte.readAll 1 0 = ([], some .closed) := by
  have hread : loneByte.read 0 none 1 =
      (some (.error .closed), 0, (loneByte.read 0 none 1).2.2) :=
    Prod.ext (by cbv) (Prod.ext (by cbv) rfl)
  rw [readAll_eq hread]

/-- The error says that the stream has ended. What is left is no length above the limit, and no
front part of a frame either: whatever comes behind it would make such a length of it. -/
theorem lone_byte_is_no_front :
    loneByte.readAll 1 0 = ([], some .closed) ∧
    ¬ ∃ frames rest, loneByte.ahead = frames.flatMap framed ++ rest ∧
      (loneByte.readAll 1 0).1 = frames ∧
      ((∃ n body, Framing.maxLength < n ∧ rest = Bytes.big 4 n ++ body) ∨
        ∃ payload, payload.length ≤ Framing.maxLength ∧ rest <+: framed payload) := by
  refine ⟨loneByte_read, ?_⟩
  rintro ⟨frames, rest, hsplit, hframes, hrest⟩
  rw [loneByte_read] at hframes
  obtain rfl : [] = frames := hframes
  obtain rfl : [0xff] = rest := hsplit
  rcases hrest with ⟨n, body, -, hlength⟩ | ⟨payload, fits, more, hmore⟩
  · have hfour := congrArg List.length hlength
    rw [List.length_append, FrameReader.length_big, List.length_singleton] at hfour
    omega
  · have hlength := congrArg List.length hmore
    rw [List.length_append, FrameReader.length_framed, List.length_singleton] at hlength
    have hmany : ¬ ([0xff] ++ more).length < 4 := by
      rw [List.length_append, List.length_singleton]
      omega
    obtain ⟨a, b, d, e, left, hfour⟩ := FrameReader.exists_four hmany
    obtain rfl : 0xff = a := (List.cons.inj hfour).1
    have hvalue : Framing.maxLength < Bytes.ofBig [0xff, b, d, e] := by
      have hmax : Framing.maxLength = 104857600 := rfl
      have hbig : Bytes.ofBig [0xff, b, d, e] =
        e.toNat + 256 * (d.toNat + 256 * (b.toNat + 256 * 255)) := rfl
      omega
    have hread := FrameReader.start_read_fits fits []
    rw [List.append_nil, ← hmore, hfour, FrameReader.start_read_four] at hread
    simp only [if_pos hvalue] at hread
    cases hread

end Stage

end RpcClient
