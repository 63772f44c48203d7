/-
Payloads of any length on a link that stays up. A writer takes every payload, and of
its length it writes the lowest 32 bits; a reader refuses a written length above the
limit. So what comes out at the other end depends on the payload alone
(`Framing.fate`), and it is the payload just when that is no longer than the limit
(`fate_eq_ok`).

What the reader has answered is what all bytes that it took say
(`FrameReader.answers`), and these are the first bytes of all frames in their order
(`Lane.Carried`): no payload is too long for that.
-/
import RpcClient.Proofs.Stream.FirstFrame
import RpcClient.Proofs.Stream.InOrder

namespace RpcClient

/-! ## One frame -/

theorem Bytes.ofBig_big (width n : Nat) : ofBig (big width n) = n % 256 ^ width := by
  rw [ofBig, big, List.reverse_reverse, ofLittle_little]

namespace Framing

/-- What a reader makes of a payload that was written. -/
def fate (payload : Bytes) : Except FrameFault Bytes :=
  let n := payload.length % 2 ^ 32
  if maxLength < n then .error (.tooLong n) else .ok (payload.take n)

theorem fate_of_fits {payload : Bytes} (fits : payload.length ≤ maxLength) :
    fate payload = .ok payload := by
  have hmod : payload.length % 2 ^ 32 = payload.length :=
    Nat.mod_eq_of_lt (Nat.lt_of_le_of_lt fits (by decide))
  rw [fate, hmod, if_neg (Nat.not_lt.2 fits), List.take_length]

/-- Just above the limit a payload is refused, and the reader says how long it is. -/
theorem fate_of_long {payload : Bytes} (long : maxLength < payload.length)
    (short : payload.length < 2 ^ 32) : fate payload = .error (.tooLong payload.length) := by
  rw [fate, Nat.mod_eq_of_lt short, if_pos long]

theorem fate_eq_ok (payload : Bytes) : fate payload = .ok payload ↔ payload.length ≤ maxLength := by
  refine ⟨fun h => ?_, fate_of_fits⟩
  rw [fate] at h
  split at h
  · cases h
  · next hshort =>
    have hlength := congrArg List.length (Except.ok.inj h)
    rw [List.length_take] at hlength
    omega

end Framing

namespace FrameReader

/-- A frame is read by itself, whatever is behind it. -/
theorem start_read_framed (payload after : Bytes) :
    ∃ rest, start.read (Framing.framed payload ++ after) =
      (start, some (Framing.fate payload), rest) := by
  obtain ⟨a, b, d, e, hbig⟩ : ∃ a b d e, Bytes.big 4 payload.length = [a, b, d, e] := by
    have hlength : (Bytes.big 4 payload.length).length = 4 := length_big _
    match hform : Bytes.big 4 payload.length with
    | [a, b, d, e] => exact ⟨a, b, d, e, rfl⟩
    | [] | [_] | [_, _] | [_, _, _] | _ :: _ :: _ :: _ :: _ :: _ => simp [hform] at hlength
  have hvalue : Bytes.ofBig [a, b, d, e] = payload.length % 2 ^ 32 := by
    rw [← hbig, Bytes.ofBig_big]
    rfl
  have hframed : Framing.framed payload ++ after = a :: b :: d :: e :: (payload ++ after) := by
    rw [Framing.framed, hbig]
    rfl
  have hthere : payload.length % 2 ^ 32 ≤ payload.length := Nat.mod_le _ _
  have henough : ¬ (payload ++ after).length < payload.length % 2 ^ 32 := by
    rw [List.length_append]
    omega
  rw [hframed, start_read_four]
  simp only [hvalue, Framing.fate, henough, if_false, List.take_append_of_le_length hthere]
  split
  · exact ⟨_, rfl⟩
  · exact ⟨_, rfl⟩

/-- A frame that is not too long is read up to its end. -/
theorem start_read_fits {payload : Bytes} (fits : payload.length ≤ Framing.maxLength)
    (after : Bytes) : start.read (Framing.framed payload ++ after) =
      (start, some (.ok payload), after) := by
  obtain ⟨rest, hread⟩ := start_read_framed payload after
  rw [Framing.fate_of_fits fits] at hread
  obtain ⟨-, hbytes, -⟩ := start_read_ok hread
  rw [hread, List.append_cancel_left hbytes]

/-! ## Many frames -/

/-- What a reader answers that begins anew after each answer, and what it holds at the
end. -/
def answers (r : FrameReader) : Bytes → FrameReader × List (Except FrameFault Bytes)
  | [] => (r, [])
  | b :: bytes =>
    match r.push b with
    | (r, none) => answers r bytes
    | (_, some result) =>
      let (r, results) := answers start bytes
      (r, result :: results)

variable {r r' : FrameReader} {bytes rest : Bytes}

theorem answers_part (h : r.read bytes = (r', none, rest)) : r.answers bytes = (r', []) := by
  induction bytes generalizing r with
  | nil =>
    cases h
    rfl
  | cons b bytes ih =>
    rw [read] at h
    split at h
    · next r₁ hpush =>
      simp only [answers, hpush]
      exact ih h
    · cases h

theorem answers_whole {result : Except FrameFault Bytes}
    (h : r.read bytes = (r', some result, rest)) :
    r.answers bytes = ((start.answers rest).1, result :: (start.answers rest).2) := by
  induction bytes generalizing r with
  | nil => cases h
  | cons b bytes ih =>
    rw [read] at h
    split at h
    · next r₁ hpush =>
      simp only [answers, hpush]
      exact ih h
    · next r₁ result₁ hpush =>
      simp only [Prod.mk.injEq, Option.some.injEq] at h
      obtain ⟨-, rfl, rfl⟩ := h
      simp only [answers, hpush]

theorem answers_append (r : FrameReader) (bytes more : Bytes) :
    r.answers (bytes ++ more) =
      (((r.answers bytes).1.answers more).1,
        (r.answers bytes).2 ++ ((r.answers bytes).1.answers more).2) := by
  induction bytes generalizing r with
  | nil => rfl
  | cons b bytes ih =>
    rw [List.cons_append, answers, answers]
    cases hpush : r.push b with
    | mk r₁ result =>
      cases result with
      | none => exact ih r₁
      | some result =>
        simp only [ih start]
        rfl

/-- Payloads that are not too long are all read, and nothing behind them is touched. -/
theorem answers_fits {payloads : List Bytes} (fits : ∀ p ∈ payloads, p.length ≤ Framing.maxLength)
    (after : Bytes) :
    start.answers (payloads.flatMap Framing.framed ++ after) =
      ((start.answers after).1, payloads.map .ok ++ (start.answers after).2) := by
  induction payloads with
  | nil => rfl
  | cons p payloads ih =>
    have hread := start_read_fits (fits p List.mem_cons_self)
      (payloads.flatMap Framing.framed ++ after)
    rw [List.flatMap_cons, List.append_assoc, answers_whole hread,
      ih fun q hq => fits q (List.mem_cons_of_mem _ hq)]
    rfl

/-- Behind payloads that are not too long, every payload has its fate. -/
theorem answers_framed {earlier : List Bytes}
    (fits : ∀ p ∈ earlier, p.length ≤ Framing.maxLength) (payload after : Bytes) :
    ∃ more, (start.answers (earlier.flatMap Framing.framed ++
      (Framing.framed payload ++ after))).2 = earlier.map .ok ++ Framing.fate payload :: more := by
  obtain ⟨rest, hread⟩ := start_read_framed payload after
  rw [answers_fits fits, answers_whole hread]
  exact ⟨_, rfl⟩

end FrameReader

/-! ## One direction -/

/-- The payload that is being sent, if any. -/
def Outbox.current (o : Outbox) : List Bytes := (o.sending.map (·.1)).toList

/-- What of its frame has still to be written. -/
def Outbox.left (o : Outbox) : Bytes := (o.sending.map (·.2.rest)).getD []

namespace Lane

/-- A direction that is open, and from which some bytes have been taken: these and those
that are still to come make up all frames, and the answers are what they say. -/
structure Carried (d : Lane) (taken : Bytes) : Prop where
  isOpen : d.pipe.closed = false
  roomy : 0 < d.pipe.capacity
  bytes : taken ++ (d.pipe.buffer ++ d.outbox.left) = d.outbox.sent.flatMap Framing.framed
  sent : d.outbox.completed ++ d.outbox.current = d.outbox.sent
  busy : ∀ payload writer, d.outbox.sending = some (payload, writer) → writer.rest ≠ []
  reader : d.inbox.reader = (FrameReader.start.answers taken).1
  results : d.inbox.results =
    (FrameReader.start.answers taken).2.map (·.mapError .invalidFrame)

theorem Carried.start : Carried {} [] := ⟨rfl, by decide, rfl, rfl, nofun, rfl, rfl⟩

variable {d : Lane} {taken : Bytes}

theorem Carried.begin (h : Carried d taken) (payload : Bytes) :
    Carried (d.take (.begin payload)) taken := by
  cases hsending : d.outbox.sending with
  | some current =>
    rw [begin_busy hsending]
    exact h
  | none =>
    have hbytes : taken ++ d.pipe.buffer = d.outbox.sent.flatMap Framing.framed := by
      simpa [Outbox.left, hsending] using h.bytes
    have hsent : d.outbox.completed = d.outbox.sent := by
      simpa [Outbox.current, hsending] using h.sent
    rw [begin_idle hsending]
    refine ⟨h.isOpen, h.roomy, ?_, ?_, fun p w hw => ?_, h.reader, h.results⟩
    · simp [Outbox.left, FrameWriter.ofPayload, ← hbytes]
    · simp [Outbox.current, hsent]
    · simp only [Option.some.injEq, Prod.mk.injEq] at hw
      obtain ⟨-, rfl⟩ := hw
      exact FrameReader.framed_ne_nil payload

/-- A turn of the writer moves as many bytes of the frame as it may and the pipe holds. -/
theorem Carried.push (h : Carried d taken) (count : Nat) :
    Carried (d.take (.push count)) taken ∧
    (d.take (.push count)).outbox.sent = d.outbox.sent ∧
    (d.take (.push count)).outbox.left = d.outbox.left.drop (min count d.pipe.space) ∧
    (d.take (.push count)).pipe.buffer =
      d.pipe.buffer ++ d.outbox.left.take (min count d.pipe.space) := by
  cases hsending : d.outbox.sending with
  | none =>
    have hleft : d.outbox.left = [] := by simp [Outbox.left, hsending]
    rw [push_idle hsending, hleft]
    exact ⟨h, rfl, by simp, by simp⟩
  | some current =>
    obtain ⟨payload, writer⟩ := current
    have busy : writer.rest ≠ [] := h.busy payload writer hsending
    have hleft : d.outbox.left = writer.rest := by simp [Outbox.left, hsending]
    have hsent : d.outbox.completed ++ [payload] = d.outbox.sent := by
      simpa [Outbox.current, hsending] using h.sent
    have hpush := Outbox.push_exact hsending busy h.isOpen count
    have hbytes : taken ++ ((d.pipe.buffer ++ writer.rest.take (min count d.pipe.space)) ++
        writer.rest.drop (min count d.pipe.space)) = d.outbox.sent.flatMap Framing.framed := by
      rw [List.append_assoc, List.take_append_drop, ← hleft]
      exact h.bytes
    rw [hleft]
    simp only [Lane.take, hpush]
    by_cases hdone : writer.rest.drop (min count d.pipe.space) = []
    · rw [if_pos hdone]
      refine ⟨⟨h.isOpen, h.roomy, ?_, ?_, fun p w hw => ?_, h.reader, h.results⟩, rfl, ?_, trivial⟩
      · simpa [Outbox.left, hdone] using hbytes
      · simpa [Outbox.current] using hsent
      · cases hw
      · simp [Outbox.left, hdone]
    · rw [if_neg hdone]
      refine ⟨⟨h.isOpen, h.roomy, ?_, ?_, fun p w hw => ?_, h.reader, h.results⟩, rfl, rfl, trivial⟩
      · simpa [Outbox.left] using hbytes
      · simpa [Outbox.current] using hsent
      · simp only [Option.some.injEq, Prod.mk.injEq] at hw
        obtain ⟨-, rfl⟩ := hw
        exact hdone

/-- A turn of the reader answers what the bytes say that it takes. -/
theorem Carried.pull (h : Carried d taken) (count : Nat) :
    ∃ taken', Carried (d.take (.pull count)) taken' := by
  have hsplit : d.pipe.buffer = d.pipe.buffer.take count ++ d.pipe.buffer.drop count :=
    (List.take_append_drop count _).symm
  rcases hread : d.inbox.reader.read (d.pipe.buffer.take count) with ⟨r, result | result, rest⟩
  · have hanswers := FrameReader.answers_part hread
    refine ⟨taken ++ d.pipe.buffer.take count, ?_⟩
    have hopen : ¬ (d.pipe.closed = true ∧ d.pipe.buffer.drop count = []) := by simp [h.isOpen]
    simp only [Lane.take, Inbox.pull_part hread, if_neg hopen]
    refine ⟨h.isOpen, h.roomy, ?_, h.sent, h.busy, ?_, ?_⟩
    · rw [List.append_assoc, ← List.append_assoc (d.pipe.buffer.take count), ← hsplit]
      exact h.bytes
    · rw [FrameReader.answers_append, ← h.reader, hanswers]
    · rw [FrameReader.answers_append, ← h.reader, hanswers, List.append_nil]
      exact h.results
  · -- The bytes behind the answer stay in the pipe: those in front of them were taken.
    obtain ⟨front, hfront⟩ := FrameReader.read_suffix hread
    have hanswers := FrameReader.answers_whole (FrameReader.read_front (hfront ▸ hread))
    refine ⟨taken ++ front, ?_⟩
    simp only [Lane.take, Inbox.pull_whole hread]
    refine ⟨h.isOpen, h.roomy, ?_, h.sent, h.busy, ?_, ?_⟩
    · rw [List.append_assoc, ← List.append_assoc front, ← List.append_assoc front, hfront,
        ← hsplit]
      exact h.bytes
    · rw [FrameReader.answers_append, ← h.reader, hanswers]
      rfl
    · rw [FrameReader.answers_append, ← h.reader, hanswers, List.map_append, ← h.results]
      rfl

theorem Carried.take (h : Carried d taken) {turn : Turn} (notClose : turn ≠ .close) :
    ∃ taken', Carried (d.take turn) taken' := by
  cases turn with
  | begin payload => exact ⟨taken, h.begin payload⟩
  | push count => exact ⟨taken, (h.push count).1⟩
  | pull count => exact h.pull count
  | close => exact absurd rfl notClose

theorem Carried.takes (h : Carried d taken) {turns : List Turn} (notClose : .close ∉ turns) :
    ∃ taken', Carried (d.takes turns) taken' := by
  induction turns generalizing d taken with
  | nil => exact ⟨taken, h⟩
  | cons turn turns ih =>
    obtain ⟨hfirst, hrest⟩ := not_or.1 (List.mem_cons.not.1 notClose)
    obtain ⟨taken', h'⟩ := h.take (Ne.symm hfirst)
    exact ih h' hrest

/-! ## Until all has arrived -/

/-- How much is still to be moved: what is not yet written has to be moved twice. -/
def load (d : Lane) : Nat := 2 * d.outbox.left.length + d.pipe.buffer.length

/-- A turn of the writer and one of the reader bring all bytes nearer to the other end. -/
theorem Carried.round (h : Carried d taken) {count count' : Nat} (pos : 0 < count)
    (pos' : 0 < count') :
    ∃ taken', Carried (d.takes [.push count, .pull count']) taken' ∧
      (d.takes [.push count, .pull count']).outbox.sent = d.outbox.sent ∧
      (d.takes [.push count, .pull count']).load ≤ d.load - 1 := by
  obtain ⟨hpushed, hsent, hleft, hbuffer⟩ := h.push count
  obtain ⟨taken', hpulled⟩ := hpushed.pull count'
  refine ⟨taken', hpulled, hsent, ?_⟩
  have hleftLength := congrArg List.length hleft
  have hbufferLength := congrArg List.length hbuffer
  rw [List.length_drop] at hleftLength
  rw [List.length_append, List.length_take] at hbufferLength
  have hfewer := (d.take (.push count)).inbox.pull_length count' (d.take (.push count)).pipe
  have hroom : d.pipe.buffer = [] → 0 < d.pipe.space := by
    intro hempty
    rw [Pipe.space, hempty]
    exact h.roomy
  change 2 * (d.take (.push count)).outbox.left.length +
    ((d.take (.push count)).inbox.pull count' (d.take (.push count)).pipe).2.buffer.length ≤ _
  rw [load]
  by_cases hempty : (d.take (.push count)).pipe.buffer = []
  · -- Nothing was written, since the pipe would hold it.
    have hnone := congrArg List.length hempty
    rw [List.length_nil] at hnone
    have hempty' : d.pipe.buffer = [] := List.length_eq_zero_iff.1 (by omega)
    have hroom' := hroom hempty'
    omega
  · have hshorter := (d.take (.push count)).inbox.pull_shortens pos' hempty
    omega

theorem Carried.rounds (h : Carried d taken) {count count' : Nat} (pos : 0 < count)
    (pos' : 0 < count') (rounds : Nat) :
    ∃ taken', Carried (d.takes (List.replicate rounds [.push count, .pull count']).flatten) taken' ∧
      (d.takes (List.replicate rounds [.push count, .pull count']).flatten).outbox.sent =
        d.outbox.sent ∧
      (d.takes (List.replicate rounds [.push count, .pull count']).flatten).load ≤
        d.load - rounds := by
  induction rounds generalizing d taken with
  | zero => exact ⟨taken, h, rfl, Nat.le_refl _⟩
  | succ rounds ih =>
    obtain ⟨taken₁, h₁, hsent₁, hload₁⟩ := h.round pos pos'
    obtain ⟨taken', h', hsent', hload'⟩ := ih h₁
    have htakes : d.takes (List.replicate (rounds + 1) [.push count, .pull count']).flatten =
        (d.takes [.push count, .pull count']).takes
          (List.replicate rounds [.push count, .pull count']).flatten := rfl
    rw [htakes]
    exact ⟨taken', h', hsent'.trans hsent₁, by omega⟩

/-- When nothing is left to be moved, all payloads were written, and all bytes were read. -/
theorem Carried.arrived (h : Carried d taken) (moved : d.load = 0) :
    d.outbox.completed = d.outbox.sent ∧ taken = d.outbox.sent.flatMap Framing.framed := by
  rw [load] at moved
  have hleft : d.outbox.left = [] := List.length_eq_zero_iff.1 (by omega)
  have hbuffer : d.pipe.buffer = [] := List.length_eq_zero_iff.1 (by omega)
  have hnone : d.outbox.sending = none := by
    cases hsending : d.outbox.sending with
    | none => rfl
    | some current =>
      have hrest : current.2.rest = [] := by simpa [Outbox.left, hsending] using hleft
      exact absurd hrest (h.busy current.1 current.2 hsending)
  constructor
  · simpa [Outbox.current, hnone] using h.sent
  · simpa [hleft, hbuffer] using h.bytes

/-- The answers on the way are the first of those at the end. -/
theorem Carried.results_prefix (h : Carried d taken) {earlier later : List Bytes} {payload : Bytes}
    (sent : d.outbox.sent = earlier ++ payload :: later)
    (fits : ∀ p ∈ earlier, p.length ≤ Framing.maxLength) :
    ∃ more, d.inbox.results <+:
        earlier.map .ok ++ (Framing.fate payload).mapError .invalidFrame :: more ∧
      (d.load = 0 → d.inbox.results =
        earlier.map .ok ++ (Framing.fate payload).mapError .invalidFrame :: more) := by
  obtain ⟨more, hmore⟩ := FrameReader.answers_framed fits payload
    (later.flatMap Framing.framed)
  have hall : d.outbox.sent.flatMap Framing.framed = earlier.flatMap Framing.framed ++
      (Framing.framed payload ++ later.flatMap Framing.framed) := by
    rw [sent, List.flatMap_append, List.flatMap_cons]
  have hanswers : (FrameReader.start.answers (d.outbox.sent.flatMap Framing.framed)).2.map
      (·.mapError LinkError.invalidFrame) =
        earlier.map .ok ++ (Framing.fate payload).mapError .invalidFrame ::
          more.map (·.mapError .invalidFrame) := by
    rw [hall, hmore, List.map_append, List.map_cons, List.map_map]
    rfl
  refine ⟨more.map (·.mapError .invalidFrame), ?_, fun moved => ?_⟩
  · rw [h.results, ← hanswers, ← h.bytes, FrameReader.answers_append, List.map_append]
    exact List.prefix_append _ _
  · rw [h.results, (h.arrived moved).2, hanswers]

end Lane

/-! ## Both directions -/

namespace Exchange

variable {x : Exchange} {side : Side} {events : List Event}

/-- Whether an event leaves the link up: somebody begins to send, writes or reads on, or
splits an end. -/
def Event.isTransfer : Event → Bool
  | .begin _ _ | .push _ _ | .pull _ _ | .split _ => true
  | _ => false

theorem turn?_transfer {e : Event} (h : e.isTransfer = true) :
    x.turn? side e ≠ some .close := by
  cases e with
  | finish | drop | dropSender | dropReceiver => cases h
  | split s => simp [turn?, closes]
  | _ =>
    simp only [turn?, closes, Bool.false_eq_true, if_false]
    split <;> simp

theorem turns_transfer (healthy : ∀ e ∈ events, e.isTransfer = true) :
    .close ∉ x.turns side events := by
  induction events generalizing x with
  | nil => exact List.not_mem_nil
  | cons e events ih =>
    rw [turns, List.mem_append, not_or, Option.mem_toList]
    exact ⟨turn?_transfer (healthy e List.mem_cons_self),
      ih fun e he => healthy e (List.mem_cons_of_mem _ he)⟩

/-- Both ends are there, each as a whole or with both its halves. -/
def Intact (x : Exchange) : Prop :=
  ∀ side, x.duplex.canSend side = true ∧ x.duplex.canReceive side = true

theorem Intact.handle (h : Intact x) {e : Event} (transfer : e.isTransfer = true) :
    Intact (x.handle e) := by
  cases e with
  | finish | drop | dropSender | dropReceiver => cases transfer
  | begin s payload =>
    simp only [Exchange.handle]
    split <;> exact h
  | push s count =>
    intro side
    simp only [Exchange.handle]
    split <;> cases s <;> exact h side
  | pull s count =>
    intro side
    simp only [Exchange.handle]
    split <;> cases s <;> exact h side
  | split s =>
    intro side
    have hside := h side
    cases s <;> cases side <;> simp only [Exchange.handle, Duplex.split] <;> split <;>
      first | exact hside | exact ⟨rfl, rfl⟩

theorem Intact.run (h : Intact x) (healthy : ∀ e ∈ events, e.isTransfer = true) :
    Intact (x.run events) := by
  induction events generalizing x with
  | nil => exact h
  | cons e events ih =>
    exact ih (h.handle (healthy e List.mem_cons_self)) fun e he =>
      healthy e (List.mem_cons_of_mem _ he)

/-- One end writes and the other reads, by turns. -/
def rounds (side : Side) (count count' rounds : Nat) : List Event :=
  (List.replicate rounds [.push side.other count, .pull side count']).flatten

theorem turns_rounds (h : Intact x) (side : Side) (count count' n : Nat) :
    x.turns side (rounds side count count' n) =
      (List.replicate n [.push count, .pull count']).flatten := by
  induction n generalizing x with
  | zero => rfl
  | succ n ih =>
    have hrounds : rounds side count count' (n + 1) =
        .push side.other count :: .pull side count' :: rounds side count count' n := rfl
    have hpush : x.turn? side (.push side.other count) = some (.push count) := by
      simp [turn?, closes, (h side.other).1]
    have h' : Intact (x.handle (.push side.other count)) := h.handle rfl
    have hpull : (x.handle (.push side.other count)).turn? side (.pull side count') =
        some (.pull count') := by
      simp [turn?, closes, (h' side).2]
    rw [hrounds, turns, hpush, turns, hpull, ih (h'.handle rfl), List.replicate_succ]
    rfl

/-- A direction of a link that is up, at any time and after any number of rounds more. -/
theorem carried (healthy : ∀ e ∈ events, e.isTransfer = true) (side : Side) {count count' : Nat}
    (pos : 0 < count) (pos' : 0 < count') (n : Nat) :
    let x := ({} : Exchange).run events
    let y := x.run (rounds side count count' n)
    (∃ taken, (x.lane side).Carried taken) ∧
    (∃ taken, (y.lane side).Carried taken) ∧
    (y.outbox side.other).sent = (x.outbox side.other).sent ∧
    (y.lane side).load ≤ (x.lane side).load - n := by
  intro x y
  have hstart : (({} : Exchange).lane side).Carried [] := by
    cases side <;> exact Lane.Carried.start
  have hx : x.Intact := Intact.run (fun side => by cases side <;> exact ⟨rfl, rfl⟩) healthy
  obtain ⟨taken, hcarried⟩ := hstart.takes (turns_transfer healthy)
  rw [← run_lane] at hcarried
  obtain ⟨taken', hcarried', hsent, hload⟩ := hcarried.rounds pos pos' n
  rw [← turns_rounds hx, ← run_lane] at hcarried' hsent hload
  exact ⟨⟨taken, hcarried⟩, ⟨taken', hcarried'⟩, hsent, hload⟩

/-- After enough rounds all payloads were written whole, and the answers are there. -/
theorem arrives {earlier later : List Bytes} {payload : Bytes}
    (healthy : ∀ e ∈ events, e.isTransfer = true) {count count' n : Nat} (pos : 0 < count)
    (pos' : 0 < count') (fits : ∀ p ∈ earlier, p.length ≤ Framing.maxLength)
    (sent : ((({} : Exchange).run events).outbox side.other).sent = earlier ++ payload :: later)
    (enough : ((({} : Exchange).run events).lane side).load ≤ n) :
    let y := (({} : Exchange).run events).run (rounds side count count' n)
    (y.outbox side.other).completed = earlier ++ payload :: later ∧
    ∃ more, (y.inbox side).results =
      earlier.map .ok ++ (Framing.fate payload).mapError .invalidFrame :: more := by
  intro y
  obtain ⟨-, ⟨taken, hy⟩, hsame, hload⟩ := carried healthy side pos pos' n
  have hmoved : (y.lane side).load = 0 := by
    have hle : (y.lane side).load ≤ ((({} : Exchange).run events).lane side).load - n := hload
    omega
  obtain ⟨more, -, hall⟩ := hy.results_prefix (hsame.trans sent) fits
  exact ⟨(hy.arrived hmoved).1.trans (hsame.trans sent), more, hall hmoved⟩

/-- **What comes of a payload of any length.** On a link that stays up, behind payloads that
are not too long, an end takes every payload: it is being written, or was written whole, and
never refused. What the other end is answered for it depends on the payload alone, in
whatever parts it is written and read, and it is the payload just when that is not above the
limit. However far the link has come, after some rounds more all payloads were written and
that answer is there. -/
theorem payload_of_any_length (events : List Event) (side : Side) (count count' : Nat)
    (earlier later : List Bytes) (payload : Bytes)
    (healthy : ∀ e ∈ events, e.isTransfer = true) (pos : 0 < count) (pos' : 0 < count')
    (fits : ∀ p ∈ earlier, p.length ≤ Framing.maxLength) :
    let x := ({} : Exchange).run events
    let out := x.outbox side.other
    let answer := (Framing.fate payload).mapError LinkError.invalidFrame
    out.sent = earlier ++ payload :: later →
    out.completed ++ out.current = out.sent ∧
    (∃ more, (x.inbox side).results <+: earlier.map .ok ++ answer :: more) ∧
    (answer = .ok payload ↔ payload.length ≤ Framing.maxLength) ∧
    ∀ n, (x.lane side).load ≤ n →
      let y := x.run (rounds side count count' n)
      (y.outbox side.other).completed = out.sent ∧
      ∃ more, (y.inbox side).results = earlier.map .ok ++ answer :: more := by
  intro x out answer hsent
  refine ⟨?_, ?_, ?_, fun n enough => ?_⟩
  · obtain ⟨⟨taken, hx⟩, -⟩ := carried healthy side pos pos' 0
    exact hx.sent
  · obtain ⟨⟨taken, hx⟩, -⟩ := carried healthy side pos pos' 0
    obtain ⟨more, hprefix, -⟩ := hx.results_prefix hsent fits
    exact ⟨more, hprefix⟩
  · have hanswer : answer = .ok payload ↔ Framing.fate payload = .ok payload := by
      simp only [answer]
      cases Framing.fate payload <;> simp [Except.mapError]
    rw [hanswer, Framing.fate_eq_ok]
  · rw [hsent]
    exact arrives healthy pos pos' fits hsent enough

/-- One payload was sent, and another one is on its way. -/
def sendingSecond : List Event :=
  [.begin .first [1], .push .first 9, .begin .first [2, 3], .push .first 3, .pull .second 4]

theorem second_payload_arrives :
    (∀ e ∈ sendingSecond, e.isTransfer = true) ∧
    (∀ p ∈ [([1] : Bytes)], p.length ≤ Framing.maxLength) ∧
    ((({} : Exchange).run sendingSecond).outbox .first).sent = [[1]] ++ [2, 3] :: [] ∧
    ((({} : Exchange).run sendingSecond).lane .second).load ≤ 10 ∧
    ∃ more, (((({} : Exchange).run sendingSecond).run (rounds .second 2 1 10)).inbox
      .second).results = [[1]].map .ok ++ .ok [2, 3] :: more := by
  have healthy : ∀ e ∈ sendingSecond, e.isTransfer = true := by decide
  have fits : ∀ p ∈ [([1] : Bytes)], p.length ≤ Framing.maxLength := by decide
  have hsent : ((({} : Exchange).run sendingSecond).outbox .first).sent =
      [[1]] ++ [2, 3] :: [] := by decide +kernel
  have hload : ((({} : Exchange).run sendingSecond).lane .second).load ≤ 10 := by decide +kernel
  obtain ⟨-, -, hanswer, harrives⟩ := payload_of_any_length sendingSecond .second 2 1 [[1]] []
    [2, 3] healthy (by decide) (by decide) fits hsent
  obtain ⟨-, more, hresults⟩ := harrives 10 hload
  rw [hanswer.2 (by decide)] at hresults
  exact ⟨healthy, fits, hsent, hload, more, hresults⟩

/-- What is sent first and is a little too long is written as a whole, and refused at the other
end. -/
theorem refused {payload : Bytes} (long : Framing.maxLength < payload.length)
    (short : payload.length < 2 ^ 32) :
    let x := ({} : Exchange).run [.begin .first payload]
    let y := x.run (rounds .second 65536 65536 (x.lane .second).load)
    (y.outbox .first).completed = [payload] ∧
    ∃ more, (y.inbox .second).results =
      .error (.invalidFrame (.tooLong payload.length)) :: more := by
  intro x y
  have healthy : ∀ e ∈ [Event.begin .first payload], e.isTransfer = true := fun e he => by
    rw [List.mem_singleton.1 he]
    rfl
  have hsent : (x.outbox Side.second.other).sent = [] ++ payload :: [] := rfl
  have hpos : 0 < 65536 := by decide
  obtain ⟨hcompleted, more, hresults⟩ :=
    arrives healthy hpos hpos (fun p hp => absurd hp List.not_mem_nil) hsent (Nat.le_refl _)
  rw [Framing.fate_of_long long short] at hresults
  exact ⟨hcompleted, more, hresults⟩

/-- One byte too many: the writer takes the payload, and the reader refuses it. -/
theorem payload_above_limit :
    let payload : Bytes := List.replicate (Framing.maxLength + 1) 0
    let x := ({} : Exchange).run [.begin .first payload]
    let y := x.run (rounds .second 65536 65536 (x.lane .second).load)
    (y.outbox .first).completed = [payload] ∧
    ∃ more, (y.inbox .second).results =
      .error (.invalidFrame (.tooLong (Framing.maxLength + 1))) :: more := by
  have hlength : (List.replicate (Framing.maxLength + 1) (0 : UInt8)).length =
      Framing.maxLength + 1 := List.length_replicate
  have hlong : Framing.maxLength < (List.replicate (Framing.maxLength + 1) (0 : UInt8)).length := by
    rw [hlength]
    exact Nat.lt_succ_self _
  have hrefused := refused hlong (by rw [hlength]; decide)
  rw [hlength] at hrefused
  exact hrefused

end Exchange

end RpcClient
