/-
When nothing more happens at an instant. A feeder stops when its plan is at an end, waits,
or has more than the pipe holds (`FeedStops`), and a taker likewise; an operation that is
not done stops when it finds no byte to move. A stage where all three have stopped is
still (`Still`), and stays so until the next instant at which somebody goes on by himself.

A stage settles in no more turns than there are bytes to move (`settle_still`): every turn
that moves some leaves fewer to come in, or fewer to be written. Collecting what was written
finds all of it at once, so it ends a millisecond later (`collect_ends`).
-/
import RpcClient.Proofs.Stream.Timed

namespace RpcClient

/-- An operation that is to read or write a frame, and has not done it. -/
def Operation.isBusy : Operation → Bool
  | .read _ _ | .write _ _ => true
  | _ => false

namespace Stage

variable {now : Nat}

/-! ## Where the feeder and the taker stop -/

/-- Where a feeder stops at an instant. -/
inductive FeedStops (now : Nat) (p : Pipe) : List Feed → Prop
  | done : FeedStops now p []
  | full {bytes : Bytes} {plan : List Feed} (isOpen : p.closed = false) (full : p.space = 0)
      (more : bytes ≠ []) : FeedStops now p (.bytes bytes :: plan)
  | waits {time : Nat} {plan : List Feed} (later : now < time) :
    FeedStops now p (.resume time :: plan)

/-- Where a taker stops at an instant. -/
inductive TakeStops (now : Nat) (p : Pipe) : List Take → Prop
  | done : TakeStops now p []
  | empty {count : Nat} {takes : List Take} (empty : p.buffer = []) (more : 0 < count) :
    TakeStops now p (.bytes count :: takes)
  | waits {time : Nat} {takes : List Take} (later : now < time) :
    TakeStops now p (.resume time :: takes)

theorem feed_stops (now : Nat) (plan : List Feed) (p : Pipe) :
    FeedStops now (feed now plan p).1 (feed now plan p).2 := by
  induction plan generalizing p with
  | nil => exact .done
  | cons first plan ih =>
    cases first with
    | bytes bytes =>
      cases hclosed : p.closed with
      | true =>
        simp only [feed, Pipe.write_closed hclosed]
        exact ih p
      | false =>
        rw [feed, Pipe.write_open hclosed]
        cases hrest : bytes.drop p.space with
        | nil => exact ih _
        | cons b rest =>
          have hlong := congrArg List.length hrest
          rw [List.length_drop, List.length_cons] at hlong
          refine .full hclosed ?_ (List.cons_ne_nil b rest)
          simp only [Pipe.space, List.length_append, List.length_take] at hlong ⊢
          omega
    | wait span =>
      simp only [feed]
      split
      · exact ih p
      · next later => exact .waits (Nat.lt_of_not_le later)
    | resume time =>
      simp only [feed]
      split
      · exact ih p
      · next later => exact .waits (Nat.lt_of_not_le later)
    | finish => exact ih p.close

theorem take_stops (now : Nat) (takes : List Take) (p : Pipe) :
    TakeStops now (take now takes p).1 (take now takes p).2 := by
  induction takes generalizing p with
  | nil => exact .done
  | cons first takes ih =>
    cases first with
    | bytes count =>
      simp only [take]
      split
      · exact ih _
      · next few => exact .empty (List.drop_eq_nil_of_le (by omega)) (by omega)
    | wait span =>
      simp only [take]
      split
      · exact ih p
      · next later => exact .waits (Nat.lt_of_not_le later)
    | resume time =>
      simp only [take]
      split
      · exact ih p
      · next later => exact .waits (Nat.lt_of_not_le later)
    | leave => exact ih p.close

theorem FeedStops.feed {p : Pipe} {plan : List Feed} (h : FeedStops now p plan) :
    feed now plan p = (p, plan) := by
  cases h with
  | done => rfl
  | @full bytes plan isOpen full more =>
    obtain ⟨b, rest, rfl⟩ := List.exists_cons_of_ne_nil more
    simp [Stage.feed, Pipe.write_open isOpen, full]
  | waits later => simp [Stage.feed, Nat.not_le.2 later]

theorem TakeStops.take {p : Pipe} {takes : List Take} (h : TakeStops now p takes) :
    take now takes p = (p, takes) := by
  cases h with
  | done => rfl
  | @empty count takes empty more =>
    have hnone : ¬ count ≤ 0 := Nat.not_le.2 more
    have hsame : { p with buffer := [] } = p := by rw [← empty]
    simp [Stage.take, empty, hnone, hsame]
  | waits later => simp [Stage.take, Nat.not_le.2 later]

/-- Nobody goes on before he is due. -/
theorem FeedStops.later {p : Pipe} {plan : List Feed} (h : FeedStops now p plan) {time : Nat}
    (before : ∀ due, feedDue? plan = some due → time < due) : FeedStops time p plan := by
  cases h with
  | done => exact .done
  | full isOpen full more => exact .full isOpen full more
  | waits => exact .waits (before _ rfl)

theorem TakeStops.later {p : Pipe} {takes : List Take} (h : TakeStops now p takes) {time : Nat}
    (before : ∀ due, takeDue? takes = some due → time < due) : TakeStops time p takes := by
  cases h with
  | done => exact .done
  | empty empty more => exact .empty empty more
  | waits => exact .waits (before _ rfl)

theorem FeedStops.due_later {p : Pipe} {plan : List Feed} (h : FeedStops now p plan) {due : Nat}
    (hdue : feedDue? plan = some due) : now < due := by
  cases h with
  | done | full => cases hdue
  | waits later => exact Option.some.inj hdue ▸ later

/-! ## Stages where nothing happens -/

/-- Nobody does anything at an instant. -/
structure Still (now : Nat) (s : Stage) : Prop where
  feeder : FeedStops now s.inbound s.plan
  taker : TakeStops now s.outbound s.takes
  unmoved : s.advance now = (s, false)

/-- The feeder and the taker have done their part. -/
def around (now : Nat) (s : Stage) : Stage :=
  { s with
    inbound := (feed now s.plan s.inbound).1
    plan := (feed now s.plan s.inbound).2
    outbound := (take now s.takes s.outbound).1
    takes := (take now s.takes s.outbound).2 }

theorem turns_succ (now most : Nat) (s : Stage) : s.turns now (most + 1) =
    if ((s.around now).advance now).2 then ((s.around now).advance now).1.turns now most
    else ((s.around now).advance now).1 := rfl

variable {s : Stage}

theorem Still.around (h : Still now s) : s.around now = s := by
  rw [Stage.around, h.feeder.feed, h.taker.take]

theorem Still.turns (h : Still now s) (most : Nat) : s.turns now most = s := by
  cases most with
  | zero => rfl
  | succ most => simp [turns_succ, h.around, h.unmoved]

theorem Still.settle (h : Still now s) : s.settle now = s.cut now := by
  rw [Stage.settle, h.turns]

/-- An operation that is not done goes on at any instant alike. -/
theorem advance_busy (busy : s.operation.isBusy = true) (now now' : Nat) :
    s.advance now = s.advance now' := by
  cases hoperation : s.operation with
  | read | write => simp only [advance, hoperation]
  | idle | collect | readDone | writeDone | collected => simp [hoperation, Operation.isBusy] at busy

theorem Still.later (h : Still now s) (busy : s.operation.isBusy = true) {time : Nat}
    (feeds : ∀ due, feedDue? s.plan = some due → time < due)
    (takes : ∀ due, takeDue? s.takes = some due → time < due) : Still time s :=
  ⟨h.feeder.later feeds, h.taker.later takes, advance_busy busy time now ▸ h.unmoved⟩

/-! ## One turn -/

/-- An operation that is over, or is another one, does not become busy. -/
theorem advance_idle (idle : s.operation.isBusy = false) (now : Nat) :
    (s.advance now).1.operation.isBusy = false := by
  cases hoperation : s.operation with
  | read | write => simp [hoperation, Operation.isBusy] at idle
  | idle | readDone | writeDone | collected => simp only [advance, hoperation, Operation.isBusy]
  | collect seen quiet =>
    simp only [advance, hoperation]
    split
    · dsimp only
      split <;> rfl
    · rfl

theorem turns_idle (idle : s.operation.isBusy = false) (now most : Nat) :
    (s.turns now most).operation.isBusy = false := by
  induction most generalizing s with
  | zero => exact idle
  | succ most ih =>
    have hnext := advance_idle (s := s.around now) idle now
    rw [turns_succ]
    split
    · exact ih hnext
    · exact hnext

/-- A read that is not done has used up the bytes that were there. -/
theorem advance_reading {reader : FrameReader} {limit : Option Limit}
    (operation : s.operation = .read reader limit)
    (busy : (s.advance now).1.operation.isBusy = true) :
    ∃ r, reader.read s.inbound.buffer = (r, none, []) ∧ s.inbound.closed = false ∧
      s.advance now = ({ s with
        inbound := { s.inbound with buffer := [] }
        operation := .read r limit }, 0 != s.inbound.buffer.length) := by
  rcases hread : reader.read s.inbound.buffer with ⟨r, _ | result | fault, rest⟩
  · obtain ⟨rfl, -⟩ := FrameReader.read_none hread
    cases hclosed : s.inbound.closed with
    | true => simp [advance, operation, FrameReader.poll, hread, hclosed, Operation.isBusy] at busy
    | false => exact ⟨r, rfl, rfl, by simp [advance, operation, FrameReader.poll, hread, hclosed]⟩
  · simp [advance, operation, FrameReader.poll, hread, Operation.isBusy] at busy
  · simp [advance, operation, FrameReader.poll, hread, Operation.isBusy] at busy

/-- A write that is not done has filled the space that was there. -/
theorem advance_writing {writer : FrameWriter} {limit : Option Limit}
    (operation : s.operation = .write writer limit)
    (busy : (s.advance now).1.operation.isBusy = true) :
    let front := writer.rest.take s.outbound.space
    s.outbound.space < writer.rest.length ∧
      s.advance now = ({ s with
        outbound := { s.outbound with buffer := s.outbound.buffer ++ front }
        operation := .write ⟨writer.rest.drop s.outbound.space⟩ limit },
        (s.outbound.buffer ++ front).length != s.outbound.buffer.length) := by
  cases hdone : writer.isDone with
  | true => simp [advance, operation, FrameWriter.poll, hdone, Operation.isBusy] at busy
  | false =>
    cases hclosed : s.outbound.closed with
    | true =>
      simp [advance, operation, FrameWriter.poll, hdone, Pipe.write_closed hclosed,
        Operation.isBusy] at busy
    | false =>
      have hpoll : writer.poll s.outbound =
          (⟨writer.rest.drop s.outbound.space⟩,
            { s.outbound with
              buffer := s.outbound.buffer ++ writer.rest.take s.outbound.space },
            if (writer.rest.drop s.outbound.space).isEmpty then some (.ok ()) else none) := by
        simp [FrameWriter.poll, hdone, Pipe.write_open hclosed]
      by_cases hall : writer.rest.length ≤ s.outbound.space
      · simp [advance, operation, hpoll, hall, Operation.isBusy] at busy
      · exact ⟨Nat.lt_of_not_le hall, by simp [advance, operation, hpoll, hall, hclosed]⟩

/-- A turn that moves nothing and does not end the operation changes nothing. -/
theorem advance_unmoved (busy : (s.advance now).1.operation.isBusy = true)
    (unmoved : (s.advance now).2 = false) : s.advance now = (s, false) := by
  refine Prod.ext ?_ unmoved
  cases hoperation : s.operation with
  | read reader limit =>
    obtain ⟨r, hread, -, hadvance⟩ := advance_reading hoperation busy
    rw [hadvance] at unmoved ⊢
    have hempty : s.inbound.buffer = [] :=
      List.length_eq_zero_iff.1 (bne_eq_false_iff_eq.1 unmoved).symm
    rw [hempty] at hread
    cases hread
    simp only [← hoperation, ← hempty]
  | write writer limit =>
    obtain ⟨hlong, hadvance⟩ := advance_writing hoperation busy
    rw [hadvance] at unmoved ⊢
    have hfull : s.outbound.space = 0 := by
      simp only [List.length_append, List.length_take, bne_eq_false_iff_eq] at unmoved
      omega
    simp only [hfull, List.take_zero, List.append_nil, List.drop_zero, ← hoperation]
  | idle | collect | readDone | writeDone | collected =>
    have hidle := advance_idle (s := s) (by rw [hoperation]; rfl) now
    rw [busy] at hidle
    cases hidle

/-! ## How many turns it takes -/

/-- How many bytes a plan has still to write. -/
def planned (plan : List Feed) : Nat := (plan.map Feed.size).foldl (· + ·) 0

theorem planned_cons (first : Feed) (plan : List Feed) :
    planned (first :: plan) = first.size + planned plan := by
  simp only [planned, ← List.sum_eq_foldl, List.map_cons, List.sum_cons]

/-- How many bytes an operation may still move. -/
def moving (s : Stage) : Nat :=
  s.inbound.buffer.length + planned s.plan + s.operation.size

theorem moving_lt_load (s : Stage) : s.moving < s.load := by
  rw [moving, load, planned]
  omega

theorem feed_size (now : Nat) (plan : List Feed) (p : Pipe) :
    (feed now plan p).1.buffer.length + planned (feed now plan p).2 ≤
      p.buffer.length + planned plan := by
  induction plan generalizing p with
  | nil => exact Nat.le_refl _
  | cons first plan ih =>
    rw [planned_cons]
    cases first with
    | bytes bytes =>
      cases hclosed : p.closed with
      | true =>
        have hrest := ih p
        simp only [feed, Pipe.write_closed hclosed]
        omega
      | false =>
        rw [feed, Pipe.write_open hclosed]
        cases hrest : bytes.drop p.space with
        | nil =>
          have hnext := ih { p with buffer := p.buffer ++ bytes.take p.space }
          simp only [List.length_append, List.length_take, hclosed, Feed.size] at hnext ⊢
          omega
        | cons b rest =>
          have hlong := congrArg List.length hrest
          simp only [List.length_drop, List.length_append, List.length_take, planned_cons,
            Feed.size, List.length_cons] at hlong ⊢
          omega
    | wait span =>
      have hnext := ih p
      simp only [feed]
      split
      · omega
      · simp only [planned_cons, Feed.size]
        omega
    | resume time =>
      have hnext := ih p
      simp only [feed]
      split
      · omega
      · simp only [planned_cons, Feed.size]
        omega
    | finish =>
      have hnext := ih p.close
      simp only [feed, Pipe.close] at hnext ⊢
      omega

theorem around_moving (now : Nat) (s : Stage) : (s.around now).moving ≤ s.moving :=
  Nat.add_le_add_right (feed_size now s.plan s.inbound) _

/-- Every turn leaves fewer bytes to be moved. -/
theorem advance_moving (busy : (s.advance now).1.operation.isBusy = true)
    (moved : (s.advance now).2 = true) : (s.advance now).1.moving < s.moving := by
  cases hoperation : s.operation with
  | read reader limit =>
    obtain ⟨r, hread, -, hadvance⟩ := advance_reading hoperation busy
    rw [hadvance] at moved ⊢
    have hsome : 0 ≠ s.inbound.buffer.length := bne_iff_ne.1 moved
    simp only [moving, hoperation, Operation.size, List.length_nil]
    omega
  | write writer limit =>
    obtain ⟨hlong, hadvance⟩ := advance_writing hoperation busy
    rw [hadvance] at moved ⊢
    simp only [List.length_append, List.length_take, bne_iff_ne] at moved
    simp only [moving, hoperation, Operation.size, List.length_drop]
    omega
  | idle | collect | readDone | writeDone | collected =>
    have hidle := advance_idle (s := s) (by rw [hoperation]; rfl) now
    rw [busy] at hidle
    cases hidle

theorem turns_still {most : Nat} (enough : s.moving < most)
    (busy : (s.turns now most).operation.isBusy = true) : Still now (s.turns now most) := by
  induction most generalizing s with
  | zero => exact absurd enough (Nat.not_lt_zero _)
  | succ most ih =>
    rw [turns_succ] at busy ⊢
    split at busy
    · next moved =>
      rw [if_pos moved]
      cases hnext : ((s.around now).advance now).1.operation.isBusy with
      | false =>
        rw [turns_idle hnext] at busy
        cases busy
      | true =>
        have hfewer := advance_moving hnext moved
        have haround := around_moving now s
        exact ih (by omega) busy
    · next unmoved =>
      rw [if_neg unmoved]
      have hsame := advance_unmoved busy (by simpa using unmoved)
      rw [hsame]
      exact ⟨feed_stops now s.plan s.inbound, take_stops now s.takes s.outbound, hsame⟩

theorem cut_busy (busy : (s.cut now).operation.isBusy = true) : s.cut now = s := by
  rw [cut] at busy ⊢
  split
  · split
    · next hdue => simp [*, Operation.isBusy] at busy
    · rfl
  · split
    · next hdue => simp [*, Operation.isBusy] at busy
    · rfl
  · rfl

/-- **A stage that has settled is still**, unless its operation is over. -/
theorem settle_still (busy : (s.settle now).operation.isBusy = true) : Still now (s.settle now) := by
  have hsame : s.settle now = s.turns now s.load := cut_busy busy
  rw [hsame] at busy ⊢
  exact turns_still s.moving_lt_load busy

/-! ## Collecting -/

theorem cut_idle (idle : s.operation.isBusy = false) (now : Nat) : s.cut now = s := by
  cases hoperation : s.operation with
  | read | write => simp [hoperation, Operation.isBusy] at idle
  | idle | collect | readDone | writeDone | collected => simp only [cut, hoperation]

/-- Who collects has found all that is in the pipe: he is through, or waits for one
millisecond more. -/
def Gathered (now : Nat) (s : Stage) : Prop :=
  (∃ bytes, s.operation = .collected bytes) ∨
    (∃ seen, s.operation = .collect seen (now + 1)) ∧ s.outbound.buffer = []

theorem advance_gathered {seen : Bytes} (operation : s.operation = .collect seen (now + 1)) :
    Gathered now (s.advance now).1 := by
  cases hbuffer : s.outbound.buffer with
  | nil =>
    simp only [advance, operation, hbuffer, List.isEmpty_nil, if_true]
    split
    · exact .inl ⟨seen, rfl⟩
    · exact .inr ⟨⟨seen, rfl⟩, hbuffer⟩
  | cons b rest =>
    simp only [advance, operation, hbuffer, List.isEmpty_cons, Bool.false_eq_true, if_false]
    exact .inr ⟨⟨_, rfl⟩, rfl⟩

theorem Gathered.advance (h : Gathered now s) : Gathered now (s.advance now).1 := by
  obtain ⟨bytes, operation⟩ | ⟨⟨seen, operation⟩, -⟩ := h
  · exact .inl ⟨bytes, by simp only [Stage.advance, operation]⟩
  · exact advance_gathered operation

/-- Nothing comes into a pipe by being taken from. -/
theorem around_empty (empty : s.outbound.buffer = []) : (s.around now).outbound.buffer = [] := by
  obtain ⟨gone, hgone, -⟩ := take_front now s.takes s.outbound
  rw [empty] at hgone
  exact (List.append_eq_nil_iff.1 hgone.symm).2

theorem Gathered.around (h : Gathered now s) : Gathered now (s.around now) :=
  h.imp_right fun h => ⟨h.1, around_empty h.2⟩

theorem Gathered.turns (h : Gathered now s) (most : Nat) : Gathered now (s.turns now most) := by
  induction most generalizing s with
  | zero => exact h
  | succ most ih =>
    rw [turns_succ]
    split
    · exact ih h.around.advance
    · exact h.around.advance

theorem Gathered.cut (h : Gathered now s) (time : Nat) : s.cut time = s := by
  obtain ⟨bytes, operation⟩ | ⟨⟨seen, operation⟩, -⟩ := h <;>
    exact cut_idle (by rw [operation]; rfl) time

theorem load_succ (s : Stage) : ∃ most, s.load = most + 1 :=
  Nat.exists_eq_succ_of_ne_zero (Nat.ne_of_gt (Nat.zero_lt_of_lt s.moving_lt_load))

theorem collect_settle (now : Nat) (s : Stage) :
    Gathered now ((s.beginCollect now).settle now) := by
  have hturns : ∀ most, Gathered now ((s.beginCollect now).turns now (most + 1)) := by
    intro most
    have hnext : Gathered now (((s.beginCollect now).around now).advance now).1 :=
      advance_gathered rfl
    rw [turns_succ]
    split
    · exact hnext.turns most
    · exact hnext
  obtain ⟨most, hmost⟩ := (s.beginCollect now).load_succ
  rw [settle, hmost, (hturns most).cut]
  exact hturns most

/-- A millisecond later he is through. -/
theorem settle_collected {seen : Bytes} (operation : s.operation = .collect seen now)
    (empty : s.outbound.buffer = []) : collected? (s.settle now) = some seen := by
  have hturn : (s.around now).advance now =
      ({ s.around now with operation := .collected seen }, false) := by
    have hoperation : (s.around now).operation = .collect seen now := operation
    simp [advance, hoperation, around_empty empty]
  obtain ⟨most, hmost⟩ := s.load_succ
  rw [settle, hmost, turns_succ, hturn, if_neg Bool.false_ne_true, cut_idle rfl]
  rfl

/-- **Collecting comes to an end.** -/
theorem collect_ends {now patience : Nat} (enough : now < patience) (s : Stage) :
    ∃ got, (clockwork.await collected? patience now ((s.beginCollect now).settle now)).1 =
      some got := by
  have hgathered := collect_settle now s
  generalize (s.beginCollect now).settle now = s at hgathered
  obtain ⟨bytes, operation⟩ | ⟨⟨seen, operation⟩, empty⟩ := hgathered
  · exact ⟨bytes, by rw [clockwork.await_found (by rw [collected?, operation])]⟩
  · have hnext : s.next?.getD patience ≤ now + 1 := by
      rw [next?, operation]
      exact List.min?_getD_le_of_mem (by simp)
    have hinstant : max (now + 1) (min patience (s.next?.getD patience)) = now + 1 := by omega
    have hnone : collected? s = none := by rw [collected?, operation]
    refine ⟨seen, ?_⟩
    rw [Clockwork.await, hnone]
    simp only [enough, if_true]
    change (clockwork.await collected? patience
      (max (now + 1) (min patience (s.next?.getD patience)))
      (s.settle (max (now + 1) (min patience (s.next?.getD patience))))).1 = some seen
    rw [hinstant, clockwork.await_found (settle_collected operation empty)]

/-- What is collected has gone from the pipe in that time. -/
theorem collect_got {patience : Nat} (enough : now < patience) (s : Stage) :
    let result := clockwork.await collected? patience now ((s.beginCollect now).settle now)
    ∃ got gone, result.1 = some got ∧ Moves s result.2.2 [] [] gone got := by
  have hbegun : Doing .collect s (s.beginCollect now) :=
    ⟨[], [], [], [], .inward rfl rfl rfl, .collecting⟩
  obtain ⟨taken, put, gone, got, hmoves, haccount⟩ :=
    (hbegun.settle now).await collected? patience now
  obtain ⟨bytes, hbytes⟩ := collect_ends enough s
  intro result
  change result.1 = some bytes at hbytes
  change Moves s result.2.2 taken put gone got at hmoves
  change Account .collect taken put got result.2.2.operation at haccount
  have hresult : collected? result.2.2 = result.1 := clockwork.await_answer rfl
  rw [hbytes, collected?] at hresult
  generalize result.2.2.operation = operation at haccount hresult
  cases haccount with
  | collecting => cases hresult
  | collected => exact ⟨got, gone, hbytes.trans hresult.symm, hmoves⟩

end Stage

end RpcClient
