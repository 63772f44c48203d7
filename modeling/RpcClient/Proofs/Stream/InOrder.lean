/-
Frames that go one way over a link, written and read in pieces. In one direction
of an exchange (`Lane`) the frames that are under way are those in the pipe,
and of the last one perhaps a part only: what is still to be written of it. The
reader is midway in them (`Flows.going`) until it finds the end, and that is
when nothing whole is left (`Flows.ended`). Every turn keeps that (`Ordered.take`),
and after the pipe was closed every turn of the reader brings it nearer to the end
(`Ordered.takes_closed`).
-/
import RpcClient.Stream.Exchange
import RpcClient.Proofs.Stream.Reading

namespace RpcClient

/-! ## Writing a part of a frame -/

namespace Outbox

variable {o : Outbox} {payload : Bytes} {writer : FrameWriter} {p : Pipe}

/-- A frame that is not written whole before the pipe is closed never is. -/
theorem push_closed (sending : o.sending = some (payload, writer)) (busy : writer.rest ≠ [])
    (closed : p.closed = true) (count : Nat) :
    o.push count p = ({ o with sending := none }, p) := by
  have hbusy : writer.isDone = false := by simpa [FrameWriter.isDone] using busy
  simp [push, sending, FrameWriter.pollUpTo, hbusy, Pipe.write_closed closed]

/-- As many bytes of what is still to be written move into the pipe as may and as it
holds. -/
theorem push_exact (sending : o.sending = some (payload, writer)) (busy : writer.rest ≠ [])
    (isOpen : p.closed = false) (count : Nat) :
    o.push count p =
      (if writer.rest.drop (min count p.space) = [] then
          { o with sending := none, completed := o.completed ++ [payload] }
        else { o with sending := some (payload, ⟨writer.rest.drop (min count p.space)⟩) },
        { p with buffer := p.buffer ++ writer.rest.take (min count p.space) }) := by
  have hbusy : writer.isDone = false := by simpa [FrameWriter.isDone] using busy
  have hmoved : (writer.rest.take count).take p.space = writer.rest.take (min count p.space) := by
    rw [List.take_take, Nat.min_comm]
  have hrest : (writer.rest.take count).drop p.space ++ writer.rest.drop count =
      writer.rest.drop (min count p.space) := by
    have hall : writer.rest.take (min count p.space) ++
        ((writer.rest.take count).drop p.space ++ writer.rest.drop count) =
        writer.rest.take (min count p.space) ++ writer.rest.drop (min count p.space) := by
      rw [List.take_append_drop, ← hmoved, ← List.append_assoc, List.take_append_drop,
        List.take_append_drop]
    exact List.append_cancel_left hall
  simp only [push, sending, FrameWriter.pollUpTo, hbusy, Pipe.write_open isOpen, hrest, hmoved,
    Bool.false_eq_true, if_false]
  by_cases hdone : writer.rest.drop (min count p.space) = []
  · simp [hdone]
  · have hnot : (writer.rest.drop (min count p.space)).isEmpty = false := by simpa using hdone
    simp [hnot, hdone]

/-- Some bytes move from what is still to be written into the pipe. -/
theorem push_open (sending : o.sending = some (payload, writer)) (busy : writer.rest ≠ [])
    (isOpen : p.closed = false) (count : Nat) :
    ∃ moved rest, moved ++ rest = writer.rest ∧
      o.push count p =
        (if rest = [] then { o with sending := none, completed := o.completed ++ [payload] }
          else { o with sending := some (payload, ⟨rest⟩) },
          { p with buffer := p.buffer ++ moved }) :=
  ⟨_, _, List.take_append_drop (min count p.space) _, push_exact sending busy isOpen count⟩

end Outbox

/-! ## Reading a part of a frame -/

namespace FrameReader

variable {r : FrameReader} {payloads : List Bytes} {seen : Nat}

/-- Bytes that come in leave the reader in the midst of the same payloads, or they
complete the first one. -/
theorem Midway.read {bytes back : Bytes} (h : Midway r payloads seen (bytes ++ back)) :
    (∃ r' seen', r.read bytes = (r', none, []) ∧ Midway r' payloads seen' back) ∨
    ∃ p more rest, payloads = p :: more ∧ r.read bytes = (start, some (.ok p), rest) ∧
      Midway start more 0 (rest ++ back) := by
  induction bytes generalizing r payloads seen with
  | nil => exact .inl ⟨r, seen, rfl, h⟩
  | cons b bytes ih =>
    obtain ⟨p, more, rfl, hpush⟩ := h.push
    split at hpush
    · obtain ⟨hpush, hmidway⟩ := hpush
      exact .inr ⟨p, more, bytes, rfl, by simp only [FrameReader.read, hpush], hmidway⟩
    · obtain ⟨r', hpush, hmidway⟩ := hpush
      have hread : r.read (b :: bytes) = r'.read bytes := by
        simp only [FrameReader.read, hpush]
      rw [hread]
      exact ih hmidway

/-- Where no more is left than a part of the last payload, none stands in front of
it. -/
theorem Midway.front_nil {front last : List Bytes} {rest : Bytes}
    (h : Midway r (front ++ last) seen rest)
    (le : rest.length ≤ (last.flatMap Framing.framed).length) : front = [] := by
  cases front with
  | nil => rfl
  | cons p front =>
    have hseen : seen < (Framing.framed p).length := h.reader.2
    have hlength := congrArg List.length h.rest
    simp only [List.cons_append, List.flatMap_cons, List.flatMap_append, List.length_drop,
      List.length_append] at hlength
    omega

end FrameReader

namespace Inbox

variable {i : Inbox} {p : Pipe} {count : Nat} {r : FrameReader} {rest : Bytes}

/-- A turn that ends no frame uses up its bytes, and finds the end if nothing stands
in front of it. -/
theorem pull_part (h : i.reader.read (p.buffer.take count) = (r, none, rest)) :
    i.pull count p =
      (if p.closed = true ∧ p.buffer.drop count = [] then
          { reader := .start, results := i.results ++ [.error .closed] }
        else { i with reader := r },
        { p with buffer := p.buffer.drop count }) := by
  obtain ⟨rfl, -⟩ := FrameReader.read_none h
  by_cases hend : p.closed = true ∧ p.buffer.drop count = []
  · simp [pull, FrameReader.pollUpTo, h, hend.1, hend.2]
  · have hnot : (p.closed && (p.buffer.drop count).isEmpty) = false := by
      simpa only [Bool.and_eq_false_imp, List.isEmpty_eq_false_iff, not_and] using hend
    simp only [pull, FrameReader.pollUpTo, h, hnot, if_neg hend, List.nil_append,
      Bool.false_eq_true, if_false]

/-- A turn that ends a frame leaves the bytes behind it. -/
theorem pull_whole {result : Except FrameFault Bytes}
    (h : i.reader.read (p.buffer.take count) = (r, some result, rest)) :
    i.pull count p =
      ({ reader := .start, results := i.results ++ [result.mapError .invalidFrame] },
        { p with buffer := rest ++ p.buffer.drop count }) := by
  cases result <;> simp [pull, FrameReader.pollUpTo, h, Except.mapError]

theorem pull_closed (i : Inbox) (count : Nat) (p : Pipe) :
    (i.pull count p).2.closed = p.closed := by
  rcases hread : i.reader.read (p.buffer.take count) with ⟨r, result | result, rest⟩
  · rw [pull_part hread]
  · rw [pull_whole hread]

/-- What was answered stays. -/
theorem pull_results (i : Inbox) (count : Nat) (p : Pipe) :
    i.results <+: (i.pull count p).1.results := by
  rcases hread : i.reader.read (p.buffer.take count) with ⟨r, result | result, rest⟩
  · rw [pull_part hread]
    dsimp only
    split
    · exact List.prefix_append _ _
    · exact List.prefix_rfl
  · rw [pull_whole hread]
    exact List.prefix_append _ _

/-- A turn that may read a byte does so if there is one. -/
theorem pull_shortens (i : Inbox) (pos : 0 < count) (some : p.buffer ≠ []) :
    (i.pull count p).2.buffer.length < p.buffer.length := by
  have hpos : 0 < p.buffer.length := List.length_pos_iff.2 some
  rcases hread : i.reader.read (p.buffer.take count) with ⟨r, result | result, rest⟩
  · rw [pull_part hread, List.length_drop]
    omega
  · have hshort := FrameReader.read_rest_length hread
    rw [List.length_take] at hshort
    rw [pull_whole hread, List.length_append, List.length_drop]
    omega

/-- A turn that may read a byte does so, or it finds the end of a closed pipe. -/
theorem pull_moves (i : Inbox) (pos : 0 < count) (closed : p.closed = true) :
    (i.pull count p).2.buffer.length < p.buffer.length ∨
      .error .closed ∈ (i.pull count p).1.results := by
  by_cases hbuffer : p.buffer = []
  · right
    have hread : i.reader.read (p.buffer.take count) = (i.reader, none, []) := by
      rw [hbuffer, List.take_nil]
      rfl
    rw [pull_part hread]
    simp [hbuffer, closed]
  · exact .inl (i.pull_shortens pos hbuffer)

theorem pull_length (i : Inbox) (count : Nat) (p : Pipe) :
    (i.pull count p).2.buffer.length ≤ p.buffer.length := by
  rcases hread : i.reader.read (p.buffer.take count) with ⟨r, result | result, rest⟩
  · rw [pull_part hread, List.length_drop]
    exact Nat.sub_le _ _
  · have hshort := FrameReader.read_rest_length hread
    rw [List.length_take] at hshort
    rw [pull_whole hread, List.length_append, List.length_drop]
    omega

end Inbox

/-! ## One direction -/

/-- What an end sends, what the other receives, and the pipe between them. -/
structure Lane where
  outbox : Outbox := {}
  inbox : Inbox := {}
  pipe : Pipe := {}

namespace Lane

/-- What can happen in one direction. -/
inductive Turn where
  | begin (payload : Bytes)
  | push (count : Nat)
  | pull (count : Nat)
  | close

/-- One turn more. -/
def take (d : Lane) : Turn → Lane
  | .begin payload => { d with outbox := d.outbox.begin payload }
  | .push count =>
    let (outbox, pipe) := d.outbox.push count d.pipe
    { d with outbox, pipe }
  | .pull count =>
    let (inbox, pipe) := d.inbox.pull count d.pipe
    { d with inbox, pipe }
  | .close => { d with pipe := d.pipe.close }

/-- All turns in their order. -/
def takes (d : Lane) (turns : List Turn) : Lane := turns.foldl take d

/-- The last payload, while its frame is in the pipe in part, and what is still to be
written of it. -/
inductive Cut : List Bytes → Bytes → Prop
  | none : Cut [] []
  | part {payload rest : Bytes} (some : rest ≠ [])
      (le : rest.length ≤ (Framing.framed payload).length) : Cut [payload] rest

theorem Cut.length_le {cut : List Bytes} {rest : Bytes} (h : Cut cut rest) :
    rest.length ≤ (cut.flatMap Framing.framed).length := by
  cases h with
  | none => exact Nat.le_refl _
  | part some le => simpa using le

/-- The payload that is being sent is the one that is cut. -/
def Sending (o : Outbox) (cut : List Bytes) (rest : Bytes) : Prop :=
  match o.sending with
  | none => cut = [] ∧ rest = [] ∧ o.sent = o.completed
  | some (payload, writer) =>
    cut = [payload] ∧ rest = writer.rest ∧ o.sent = o.completed ++ [payload]

/-- Where the frames of a direction are. -/
inductive Flows (d : Lane) : Prop
  /-- Some were received, some wait in the pipe, and of one perhaps a part. -/
  | going (got waiting cut : List Bytes) (rest : Bytes) (seen : Nat)
      (completed : d.outbox.completed = got ++ waiting)
      (results : d.inbox.results = got.map .ok)
      (midway : d.inbox.reader.Midway (waiting ++ cut) seen (d.pipe.buffer ++ rest))
      (isCut : Cut cut rest) (sending : d.pipe.closed = false → Sending d.outbox cut rest)
  /-- All were received, and the end was found, more than once perhaps. -/
  | ended (times : Nat) (closed : d.pipe.closed = true) (buffer : d.pipe.buffer = [])
      (reader : d.inbox.reader = .start)
      (results : d.inbox.results =
        d.outbox.completed.map .ok ++ List.replicate (times + 1) (.error .closed))

/-- Once the pipe is closed it does not matter any more what is being sent. -/
theorem Flows.of_closed {d d' : Lane} (h : d.Flows) (closed : d'.pipe.closed = true)
    (sameCompleted : d'.outbox.completed = d.outbox.completed) (sameInbox : d'.inbox = d.inbox)
    (sameBuffer : d'.pipe.buffer = d.pipe.buffer) : d'.Flows := by
  cases h with
  | ended times _ buffer reader results =>
    refine .ended times closed (sameBuffer.trans buffer) ?_ ?_
    · rw [sameInbox, reader]
    · rw [sameInbox, results, sameCompleted]
  | going got waiting cut rest seen completed results midway isCut _ =>
    refine .going got waiting cut rest seen (sameCompleted.trans completed) ?_ ?_ isCut
      fun hopen => ?_
    · rw [sameInbox, results]
    · rw [sameInbox, sameBuffer]
      exact midway
    · cases closed.symm.trans hopen

/-- What holds of a direction after any number of turns. -/
structure Ordered (d : Lane) : Prop where
  flows : d.Flows
  sent : d.outbox.completed <+: d.outbox.sent
  busy : ∀ payload writer, d.outbox.sending = some (payload, writer) → writer.rest ≠ []

theorem Ordered.start : Ordered {} where
  flows := .going [] [] [] [] 0 rfl rfl .nil .none fun _ => ⟨rfl, rfl, rfl⟩
  sent := List.prefix_rfl
  busy := nofun

variable {d : Lane}

/-- Nothing is begun while a payload is being sent. -/
theorem begin_busy {current : Bytes × FrameWriter} (hsending : d.outbox.sending = some current)
    (payload : Bytes) : d.take (.begin payload) = d := by
  simp [Lane.take, Outbox.begin, hsending]

theorem begin_idle (hsending : d.outbox.sending = none) (payload : Bytes) :
    d.take (.begin payload) = { d with outbox := { d.outbox with
      sending := some (payload, .ofPayload payload), sent := d.outbox.sent ++ [payload] } } := by
  simp [Lane.take, Outbox.begin, hsending]

theorem push_idle (hsending : d.outbox.sending = none) (count : Nat) :
    d.take (.push count) = d := by
  simp [Lane.take, Outbox.push, hsending]

theorem Ordered.begin (h : Ordered d) {payload : Bytes}
    (fits : payload.length ≤ Framing.maxLength) : Ordered (d.take (.begin payload)) := by
  cases hsending : d.outbox.sending with
  | some current =>
    rw [begin_busy hsending]
    exact h
  | none =>
    have hframed : Framing.framed payload ≠ [] := FrameReader.framed_ne_nil payload
    rw [begin_idle hsending]
    refine ⟨?_, h.sent.trans (List.prefix_append _ _), fun p w hw => ?_⟩
    · cases hclosed : d.pipe.closed with
      | true => exact h.flows.of_closed hclosed rfl rfl rfl
      | false =>
        cases h.flows with
        | ended times closed => cases hclosed.symm.trans closed
        | going got waiting cut rest seen completed results midway isCut sending =>
          obtain ⟨rfl, rfl, hsent⟩ : cut = [] ∧ rest = [] ∧ d.outbox.sent = d.outbox.completed := by
            simpa [Sending, hsending] using sending hclosed
          rw [List.append_nil] at midway
          have hmidway := midway.append fits
          rw [List.append_nil] at hmidway
          exact .going got waiting [payload] (Framing.framed payload) seen completed results
            hmidway (.part hframed (Nat.le_refl _)) fun _ => ⟨rfl, rfl, by rw [hsent]⟩
    · simp only [Option.some.injEq, Prod.mk.injEq] at hw
      obtain ⟨-, rfl⟩ := hw
      exact hframed

theorem Ordered.push (h : Ordered d) (count : Nat) : Ordered (d.take (.push count)) := by
  cases hsending : d.outbox.sending with
  | none =>
    rw [push_idle hsending]
    exact h
  | some current =>
    obtain ⟨payload, writer⟩ := current
    have busy : writer.rest ≠ [] := h.busy payload writer hsending
    cases hclosed : d.pipe.closed with
    | true =>
      have hpush := Outbox.push_closed hsending busy hclosed count
      simp only [Lane.take, hpush]
      exact ⟨h.flows.of_closed hclosed rfl rfl rfl, h.sent, nofun⟩
    | false =>
      obtain ⟨moved, rest, hmoved, hpush⟩ := Outbox.push_open hsending busy hclosed count
      simp only [Lane.take, hpush]
      cases h.flows with
      | ended times closed => cases hclosed.symm.trans closed
      | going got waiting cut rest₀ seen completed results midway isCut sending =>
        obtain ⟨rfl, rfl, hsent⟩ : cut = [payload] ∧ rest₀ = writer.rest ∧
            d.outbox.sent = d.outbox.completed ++ [payload] := by
          simpa [Sending, hsending] using sending hclosed
        have hmidway : d.inbox.reader.Midway (waiting ++ [payload]) seen
            ((d.pipe.buffer ++ moved) ++ rest) := by
          rw [List.append_assoc, hmoved]
          exact midway
        split
        · next hdone =>
          -- The frame is in the pipe as a whole, so that its payload waits like the others.
          subst hdone
          refine ⟨.going got (waiting ++ [payload]) [] [] seen ?_ results ?_ .none fun _ =>
            ⟨rfl, rfl, hsent⟩, ?_, nofun⟩
          · rw [completed, List.append_assoc]
          · rw [List.append_nil]
            exact hmidway
          · exact hsent ▸ List.prefix_rfl
        · next hmore =>
          have hle : rest.length ≤ (Framing.framed payload).length := by
            have hlength := congrArg List.length hmoved
            have hcut : writer.rest.length ≤ (Framing.framed payload).length := by
              simpa using isCut.length_le
            rw [List.length_append] at hlength
            omega
          refine ⟨.going got waiting [payload] rest seen completed results hmidway
            (.part hmore hle) fun _ => ⟨rfl, rfl, hsent⟩, h.sent, fun p w hw => ?_⟩
          simp only [Option.some.injEq, Prod.mk.injEq] at hw
          obtain ⟨-, rfl⟩ := hw
          exact hmore

theorem Ordered.pull (h : Ordered d) (count : Nat) : Ordered (d.take (.pull count)) := by
  refine ⟨?_, h.sent, h.busy⟩
  simp only [Lane.take]
  cases h.flows with
  | ended times closed buffer reader results =>
    have hread : d.inbox.reader.read (d.pipe.buffer.take count) = (.start, none, []) := by
      rw [buffer, reader, List.take_nil]
      rfl
    rw [Inbox.pull_part hread]
    refine .ended (times + 1) closed ?_ ?_ ?_
    · simp [buffer]
    · simp [buffer, closed]
    · simp only [buffer, closed, List.drop_nil, and_self, if_true, results]
      rw [List.append_assoc, ← List.replicate_succ']
  | going got waiting cut rest seen completed results midway isCut sending =>
    have hsplit : d.pipe.buffer ++ rest =
        d.pipe.buffer.take count ++ (d.pipe.buffer.drop count ++ rest) := by
      rw [← List.append_assoc, List.take_append_drop]
    rw [hsplit] at midway
    rcases midway.read with ⟨r, seen', hread, hmidway⟩ | ⟨p, more, left, hp, hread, hmidway⟩
    · rw [Inbox.pull_part hread]
      split
      · next hend =>
        obtain ⟨hclosed, hdrop⟩ := hend
        rw [hdrop, List.nil_append] at hmidway
        obtain rfl : waiting = [] := hmidway.front_nil isCut.length_le
        rw [List.append_nil] at completed
        refine .ended 0 hclosed hdrop rfl ?_
        rw [results, completed]
        rfl
      · exact .going got waiting cut rest seen' completed results hmidway isCut sending
    · rw [Inbox.pull_whole hread]
      cases waiting with
      | nil =>
        -- The payload that is cut cannot have been read whole.
        exfalso
        cases isCut with
        | none => cases hp
        | part some le =>
          obtain ⟨rfl, rfl⟩ := List.cons.inj hp
          have hnone := hmidway.rest
          simp only [List.flatMap_nil, List.drop_nil, List.nil_eq, List.append_eq_nil_iff] at hnone
          exact some hnone.2.2
      | cons first waiting =>
        obtain ⟨rfl, rfl⟩ := List.cons.inj hp
        rw [← List.append_assoc] at hmidway
        refine .going (got ++ [first]) waiting cut rest 0 ?_ ?_ hmidway isCut sending
        · rw [completed, List.append_assoc, List.singleton_append]
        · rw [results, List.map_append]
          rfl

theorem Ordered.close (h : Ordered d) : Ordered (d.take .close) :=
  ⟨h.flows.of_closed rfl rfl rfl rfl, h.sent, h.busy⟩

theorem Ordered.take (h : Ordered d) (turn : Turn)
    (fits : ∀ payload, turn = .begin payload → payload.length ≤ Framing.maxLength) :
    Ordered (d.take turn) := by
  cases turn with
  | begin payload => exact h.begin (fits payload rfl)
  | push count => exact h.push count
  | pull count => exact h.pull count
  | close => exact h.close

theorem Ordered.takes (h : Ordered d) (turns : List Turn)
    (fits : ∀ payload, .begin payload ∈ turns → payload.length ≤ Framing.maxLength) :
    Ordered (d.takes turns) := by
  induction turns generalizing d with
  | nil => exact h
  | cons turn turns ih =>
    have hfirst : Ordered (d.take turn) := h.take turn fun payload he =>
      fits payload (he ▸ List.mem_cons_self)
    exact ih hfirst fun payload hmem => fits payload (List.mem_cons_of_mem _ hmem)

/-! ## What the receiver gets -/

/-- The answers are payloads that were sent, from the first one on and without a gap;
the end is told to nobody who has not got all. -/
theorem Ordered.results (h : Ordered d) :
    ∃ later times, d.outbox.completed = d.inbox.received ++ later ∧
      d.inbox.results =
        d.inbox.received.map .ok ++ List.replicate times (.error .closed) ∧
      (0 < times → later = [] ∧ d.pipe.closed = true) := by
  have hreceived : ∀ (got : List Bytes) times,
      d.inbox.results = got.map .ok ++ List.replicate times (.error .closed) →
        d.inbox.received = got := by
    intro got times hresults
    have hoks : (got.map (Except.ok (ε := LinkError))).filterMap Except.toOption = got := by
      rw [List.filterMap_map]
      exact List.filterMap_some
    have herrors : (List.replicate times
        (Except.error (α := Bytes) LinkError.closed)).filterMap Except.toOption = [] := by
      simp [List.filterMap_eq_nil_iff, Except.toOption]
    rw [Inbox.received, hresults, List.filterMap_append, hoks, herrors, List.append_nil]
  cases h.flows with
  | going got waiting cut rest seen completed results midway isCut sending =>
    have hgot := hreceived got 0 (by simpa using results)
    rw [hgot]
    exact ⟨waiting, 0, completed, by simpa using results, fun hpos => absurd hpos (by decide)⟩
  | ended times closed buffer reader results =>
    have hgot := hreceived d.outbox.completed (times + 1) results
    rw [hgot]
    exact ⟨[], times + 1, by simp, results, fun _ => ⟨rfl, closed⟩⟩

/-- Who has been told the end has got all. -/
theorem Ordered.results_ended (h : Ordered d) (told : .error .closed ∈ d.inbox.results) :
    ∃ times, d.inbox.results =
      d.outbox.completed.map .ok ++ List.replicate (times + 1) (.error .closed) := by
  cases h.flows with
  | going got waiting cut rest seen completed results midway isCut sending =>
    rw [results] at told
    obtain ⟨payload, -, hpayload⟩ := List.mem_map.1 told
    cases hpayload
  | ended times closed buffer reader results => exact ⟨times, results⟩

/-! ## After the end -/

/-- Whether a turn may read a byte. -/
def Turn.reads : Turn → Bool
  | .pull (_ + 1) => true
  | _ => false

/-- What a turn does after the pipe was closed. -/
structure Ends (d d' : Lane) (reads : Nat) : Prop where
  closed : d'.pipe.closed = true
  completed : d'.outbox.completed = d.outbox.completed
  results : d.inbox.results <+: d'.inbox.results
  near : d'.pipe.buffer.length + reads ≤ d.pipe.buffer.length ∨
    .error .closed ∈ d'.inbox.results

theorem Ordered.take_closed (h : Ordered d) (closed : d.pipe.closed = true) (turn : Turn) :
    Ends d (d.take turn) (if turn.reads then 1 else 0) := by
  cases turn with
  | begin payload =>
    refine ⟨closed, ?_, List.prefix_rfl, .inl (Nat.le_refl _)⟩
    simp only [Lane.take, Outbox.begin]
    split <;> rfl
  | push count =>
    have hpush : (d.outbox.push count d.pipe).1.completed = d.outbox.completed ∧
        (d.outbox.push count d.pipe).2 = d.pipe := by
      cases hsending : d.outbox.sending with
      | none => simp [Outbox.push, hsending]
      | some current =>
        rw [Outbox.push_closed hsending (h.busy _ _ hsending) closed]
        exact ⟨rfl, rfl⟩
    refine ⟨?_, hpush.1, List.prefix_rfl, .inl ?_⟩
    · simpa only [Lane.take, hpush.2] using closed
    · simp [Lane.take, hpush.2, Turn.reads]
  | pull count =>
    refine ⟨(d.inbox.pull_closed count d.pipe).trans closed, rfl,
      d.inbox.pull_results count d.pipe, ?_⟩
    cases count with
    | zero => exact .inl (d.inbox.pull_length 0 d.pipe)
    | succ count => exact d.inbox.pull_moves (Nat.succ_pos count) closed
  | close => exact ⟨rfl, rfl, List.prefix_rfl, .inl (Nat.le_refl _)⟩

/-- After the pipe was closed, each turn that may read a byte brings the receiver nearer
to the end. -/
theorem Ordered.takes_closed (h : Ordered d) (closed : d.pipe.closed = true) (turns : List Turn)
    (fits : ∀ payload, .begin payload ∈ turns → payload.length ≤ Framing.maxLength) :
    Ends d (d.takes turns) (turns.countP Turn.reads) := by
  induction turns generalizing d with
  | nil => exact ⟨closed, rfl, List.prefix_rfl, .inl (Nat.le_refl _)⟩
  | cons turn turns ih =>
    have hfirst : Ends d (d.take turn) (if turn.reads then 1 else 0) := h.take_closed closed turn
    have hordered : Ordered (d.take turn) := h.take turn fun payload he =>
      fits payload (he ▸ List.mem_cons_self)
    have hrest : Ends (d.take turn) ((d.take turn).takes turns) (turns.countP Turn.reads) :=
      ih hordered hfirst.closed fun payload hmem => fits payload (List.mem_cons_of_mem _ hmem)
    refine ⟨hrest.closed, hrest.completed.trans hfirst.completed,
      hfirst.results.trans hrest.results, ?_⟩
    rcases hfirst.near with hnear | htold
    · rcases hrest.near with hnearer | htold
      · left
        have htakes : d.takes (turn :: turns) = (d.take turn).takes turns := rfl
        rw [List.countP_cons, htakes]
        omega
      · exact .inr htold
    · exact .inr (hrest.results.subset htold)

end Lane

/-! ## Both directions -/

namespace Exchange

variable {x : Exchange} {side : Side}

/-- The direction in which a side receives. -/
def lane (x : Exchange) (side : Side) : Lane where
  outbox := x.outbox side.other
  inbox := x.inbox side
  pipe := x.duplex.incoming side

/-- Whether an event ends what a side sends: it finishes, one of the two ends goes away,
or the last half of one. -/
def closes (x : Exchange) (side : Side) : Event → Bool
  | .finish s => s = side
  | .drop _ => true
  | .dropSender s =>
    match x.duplex.shape s with
    | .split _ receiver => !receiver
    | _ => false
  | .dropReceiver s =>
    match x.duplex.shape s with
    | .split sender _ => !sender
    | _ => false
  | _ => false

/-- What an event is for the direction in which a side receives. -/
def turn? (x : Exchange) (side : Side) (e : Event) : Option Lane.Turn :=
  if x.closes side.other e then some .close
  else
    match e with
    | .begin s payload =>
      if s = side.other ∧ x.duplex.canSend s = true then some (.begin payload) else none
    | .push s count =>
      if s = side.other ∧ x.duplex.canSend s = true then some (.push count) else none
    | .pull s count =>
      if s = side ∧ x.duplex.canReceive s = true then some (.pull count) else none
    | _ => none

theorem handle_lane (x : Exchange) (e : Event) (side : Side) :
    (x.handle e).lane side = (x.turn? side e).elim (x.lane side) (x.lane side).take := by
  cases e with
  | begin s payload =>
    cases hsend : x.duplex.canSend s <;> cases s <;> cases side <;>
      simp [handle, turn?, closes, hsend, lane, setOutbox, Side.other, Lane.take]
  | push s count =>
    cases hsend : x.duplex.canSend s <;> cases s <;> cases side <;>
      simp [handle, turn?, closes, hsend, lane, setOutbox, Side.other, Lane.take, Duplex.incoming,
        Duplex.outgoing, Duplex.setOutgoing]
  | pull s count =>
    cases hreceive : x.duplex.canReceive s <;> cases s <;> cases side <;>
      simp [handle, turn?, closes, hreceive, lane, setInbox, Side.other, Lane.take,
        Duplex.incoming, Duplex.setIncoming]
  | finish s =>
    cases s <;> cases side <;>
      simp [handle, turn?, closes, lane, Side.other, Lane.take, Duplex.incoming, Duplex.finish,
        Duplex.outgoing, Duplex.setOutgoing]
  | split s =>
    cases side <;> simp only [handle, turn?, closes, Duplex.split] <;> split <;> cases s <;> rfl
  | drop s =>
    cases s <;> cases side <;> rfl
  | dropSender s =>
    cases hshape : x.duplex.shape s with
    | split sender receiver =>
      cases s <;> cases side <;> cases receiver <;>
        simp [handle, turn?, closes, hshape, Duplex.keepHalves, lane, Lane.take, Duplex.incoming,
          Duplex.setShape, Link.hangUp]
    | _ => simp [handle, turn?, closes, hshape]
  | dropReceiver s =>
    cases hshape : x.duplex.shape s with
    | split sender receiver =>
      cases s <;> cases side <;> cases sender <;>
        simp [handle, turn?, closes, hshape, Duplex.keepHalves, lane, Lane.take, Duplex.incoming,
          Duplex.setShape, Link.hangUp]
    | _ => simp [handle, turn?, closes, hshape]

/-- What a run is for the direction in which a side receives. -/
def turns (x : Exchange) (side : Side) : List Event → List Lane.Turn
  | [] => []
  | e :: events => (x.turn? side e).toList ++ (x.handle e).turns side events

theorem run_lane (x : Exchange) (side : Side) (events : List Event) :
    (x.run events).lane side = (x.lane side).takes (x.turns side events) := by
  induction events generalizing x with
  | nil => rfl
  | cons e events ih =>
    have hrun : x.run (e :: events) = (x.handle e).run events := rfl
    rw [hrun, ih, handle_lane, turns]
    cases x.turn? side e <;> rfl

/-- Nothing is sent but what an end begins to send. -/
theorem begin_of_turns {payload : Bytes} {events : List Event}
    (h : .begin payload ∈ x.turns side events) : .begin side.other payload ∈ events := by
  induction events generalizing x with
  | nil => cases h
  | cons e events ih =>
    rw [turns, List.mem_append, Option.mem_toList] at h
    rcases h with hfirst | hrest
    · have he : e = .begin side.other payload := by
        cases e with
        | begin s other =>
          by_cases hs : s = side.other ∧ x.duplex.canSend s = true
          · simp only [turn?, closes, Bool.false_eq_true, if_false, if_pos hs,
              Option.some.injEq, Lane.Turn.begin.injEq] at hfirst
            rw [hs.1, hfirst]
          · simp [turn?, closes, hs] at hfirst
        | _ =>
          simp only [turn?] at hfirst
          split at hfirst <;> simp at hfirst
      exact he ▸ List.mem_cons_self
    · exact List.mem_cons_of_mem _ (ih hrest)

/-- Whether an event is a turn in which a side may read a byte. -/
def Event.reads (side : Side) : Event → Bool
  | .pull s (_ + 1) => s = side
  | _ => false

/-- Nobody who cannot receive comes to receive. -/
theorem canReceive_of_handle {e : Event} (h : (x.handle e).duplex.canReceive side = true) :
    x.duplex.canReceive side = true := by
  cases e with
  | begin s payload =>
    simp only [handle] at h
    split at h <;> exact h
  | push s count =>
    simp only [handle] at h
    split at h <;> cases s <;> exact h
  | pull s count =>
    simp only [handle] at h
    split at h <;> cases s <;> exact h
  | finish s => cases s <;> exact h
  | split s =>
    cases hshape : x.duplex.shape s with
    | whole =>
      cases s <;> cases side <;>
        simp_all [handle, Duplex.split, Duplex.canReceive, Duplex.shape, Duplex.setShape]
    | _ => simpa [handle, Duplex.split, hshape] using h
  | drop s =>
    cases s <;> cases side <;>
      simp_all [handle, Duplex.drop, Duplex.canReceive, Duplex.shape, Duplex.setShape]
  | dropSender s =>
    cases hshape : x.duplex.shape s with
    | split sender receiver =>
      cases s <;> cases side <;> cases receiver <;>
        simp_all [handle, Duplex.keepHalves, Duplex.canReceive, Duplex.shape, Duplex.setShape]
    | _ => simpa [handle, hshape] using h
  | dropReceiver s =>
    cases hshape : x.duplex.shape s with
    | split sender receiver =>
      cases s <;> cases side <;> cases sender <;>
        simp_all [handle, Duplex.keepHalves, Duplex.canReceive, Duplex.shape, Duplex.setShape]
    | _ => simpa [handle, hshape] using h

/-- Whoever can receive at the end has taken all its turns. -/
theorem countP_turns {events : List Event}
    (h : (x.run events).duplex.canReceive side = true) :
    x.duplex.canReceive side = true ∧
      events.countP (Event.reads side) ≤ (x.turns side events).countP Lane.Turn.reads := by
  induction events generalizing x with
  | nil => exact ⟨h, Nat.le_refl _⟩
  | cons e events ih =>
    obtain ⟨hnext, hrest⟩ := ih (x := x.handle e) h
    have hcan : x.duplex.canReceive side = true := canReceive_of_handle hnext
    refine ⟨hcan, ?_⟩
    rw [turns, List.countP_append, List.countP_cons]
    have hfirst : (if e.reads side then 1 else 0) ≤
        (x.turn? side e).toList.countP Lane.Turn.reads := by
      split
      · next hreads =>
        unfold Event.reads at hreads
        split at hreads
        · next s count =>
          have hs : s = side := by simpa using hreads
          simp [turn?, closes, hs, hcan, Lane.Turn.reads]
        · cases hreads
      · exact Nat.zero_le _
    omega

/-- **Frames arrive whole and in order.** Of all payloads that an end has begun to send
the first ones were written whole, and of these the first ones are what the other end has
got, byte for byte and without a gap, whatever parts of the frames the two have written
and read so far, and whatever goes the other way. Whoever asks gets nothing but these
payloads, and that the link is closed only behind the last one that was written whole.

When what an end sends is ended, in the midst of a frame or not, and the other goes on
asking, it gets all that were written whole, and then that the link is closed. -/
theorem frames_in_order (events more : List Event)
    (fits : ∀ s payload, .begin s payload ∈ events ++ more → payload.length ≤ Framing.maxLength)
    (side : Side) :
    let x := ({} : Exchange).run events
    let y := x.run more
    let out := x.outbox side.other
    let inp := x.inbox side
    let pipe := x.duplex.incoming side
    inp.received <+: out.completed ∧ out.completed <+: out.sent ∧
    (∃ later times, out.completed = inp.received ++ later ∧
      inp.results = inp.received.map .ok ++ List.replicate times (.error .closed) ∧
      (0 < times → later = [] ∧ pipe.closed = true)) ∧
    (∀ e, x.closes side.other e = true → ((x.handle e).duplex.incoming side).closed = true) ∧
    (pipe.closed = true → y.duplex.canReceive side = true →
      pipe.buffer.length < more.countP (Event.reads side) →
      ∃ times, (y.inbox side).results =
        out.completed.map .ok ++ List.replicate (times + 1) (.error .closed)) := by
  intro x y out inp pipe
  have hx : (x.lane side).Ordered := by
    have hstart : (({} : Exchange).lane side).Ordered := by
      cases side <;> exact Lane.Ordered.start
    have hlane := run_lane {} side events
    rw [hlane]
    exact hstart.takes _ fun payload hmem =>
      fits _ payload (List.mem_append_left _ (begin_of_turns hmem))
  obtain ⟨later, times, hcompleted, hresults, hover⟩ := hx.results
  refine ⟨⟨later, hcompleted.symm⟩, hx.sent, ⟨later, times, hcompleted, hresults, hover⟩,
    fun e he => ?_, fun hclosed hcan hmany => ?_⟩
  · have hturn : x.turn? side e = some .close := by simp only [turn?, he, if_true]
    have hlane := x.handle_lane e side
    rw [hturn] at hlane
    exact congrArg (·.pipe.closed) hlane
  · have hfits : ∀ payload, .begin payload ∈ x.turns side more →
        payload.length ≤ Framing.maxLength := fun payload hmem =>
      fits _ payload (List.mem_append_right _ (begin_of_turns hmem))
    have hy : y.lane side = (x.lane side).takes (x.turns side more) := x.run_lane side more
    have hends := hx.takes_closed hclosed (x.turns side more) hfits
    have hordered := hx.takes (x.turns side more) hfits
    rw [← hy] at hends hordered
    have htold : .error .closed ∈ (y.lane side).inbox.results := by
      rcases hends.near with hnear | htold
      · have hcount : more.countP (Event.reads side) ≤
            (x.turns side more).countP Lane.Turn.reads := (countP_turns hcan).2
        have hbuffer : (x.lane side).pipe.buffer.length = pipe.buffer.length := rfl
        omega
      · exact htold
    obtain ⟨again, hall⟩ := hordered.results_ended htold
    rw [hends.completed] at hall
    exact ⟨again, hall⟩

/-- An empty payload and another one arrive; the end goes away in the midst of the third. -/
theorem frames_before_cut :
    let events : List Event :=
      [.begin .first [], .push .first 3, .push .first 9, .pull .second 1, .begin .first [7, 8],
        .split .second, .push .first 100, .begin .first [1, 2, 3], .push .first 5, .drop .first]
    let x := ({} : Exchange).run events
    let more : List Event := List.replicate 15 (.pull .second 2)
    (∀ s payload, Event.begin s payload ∈ events ++ more → payload.length ≤ Framing.maxLength) ∧
    (x.duplex.incoming .second).closed = true ∧
    (x.run more).duplex.canReceive .second = true ∧
    (x.duplex.incoming .second).buffer.length < more.countP (Event.reads .second) ∧
    (x.outbox .first).completed = [[], [7, 8]] ∧
    ∃ times, ((x.run more).inbox .second).results =
      (x.outbox .first).completed.map .ok ++ List.replicate (times + 1) (.error .closed) := by
  intro events x more
  have fits : ∀ s payload, Event.begin s payload ∈ events ++ more →
      payload.length ≤ Framing.maxLength := by
    intro s payload hmem
    simp only [events, more, List.mem_append, List.mem_cons, List.mem_replicate, reduceCtorEq,
      Event.begin.injEq, false_or, or_false, and_false, List.not_mem_nil] at hmem
    rcases hmem with ⟨-, rfl⟩ | ⟨-, rfl⟩ | ⟨-, rfl⟩ <;> decide
  have hclosed : (x.duplex.incoming .second).closed = true := by decide +kernel
  have hcan : (x.run more).duplex.canReceive .second = true := by decide +kernel
  have hmany : (x.duplex.incoming .second).buffer.length < more.countP (Event.reads .second) := by
    decide +kernel
  have hcompleted : (x.outbox .first).completed = [[], [7, 8]] := by decide +kernel
  obtain ⟨-, -, -, -, hall⟩ := frames_in_order events more fits .second
  exact ⟨fits, hclosed, hcan, hmany, hcompleted,
    by simpa only [x, Side.other] using hall hclosed hcan hmany⟩

end Exchange

end RpcClient
