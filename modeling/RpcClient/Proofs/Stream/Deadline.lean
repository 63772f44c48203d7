/-
A time limit only cuts an operation. Without its limit (`unlimited`) an operation goes on
in the same way at every instant, so that the two worlds keep in step until the limit has
passed (`advance_unlimited`, `turns_unlimited`). They do not look at the clock at the same
instants: the one with a limit also does when that passes. But then nothing happens in the
other one, which is still (`Still`), unless it has something to do at just that instant.

Reading and writing differ in what is found when they are done. What the argument needs
of it is put together in `Watch`, once for both.
-/
import RpcClient.Proofs.Stream.Settled

namespace RpcClient

namespace Operation

/-- The same without its limit. -/
def unlimited : Operation → Operation
  | .read reader _ => .read reader none
  | .write writer _ => .write writer none
  | operation => operation

/-- The limit of an operation that is not done. -/
def limit? : Operation → Option Limit
  | .read _ limit | .write _ limit => limit
  | _ => none

/-- A read that was begun under a limit. -/
inductive Reading (limit : Limit) : Operation → Prop
  | going (reader : FrameReader) : Reading limit (.read reader (some limit))
  | done (result : Except LinkError Bytes) : Reading limit (.readDone result)

/-- A write that was begun under a limit. -/
inductive Writing (limit : Limit) : Operation → Prop
  | going (writer : FrameWriter) : Writing limit (.write writer (some limit))
  | done (result : Except LinkError Unit) : Writing limit (.writeDone result)

theorem unlimited_of_idle {operation : Operation} (idle : operation.isBusy = false) :
    operation.unlimited = operation := by
  cases operation <;> first | rfl | cases idle

end Operation

namespace Stage

/-! ## Without a limit -/

/-- The same stage with an operation without limit. -/
def unlimited (s : Stage) : Stage := { s with operation := s.operation.unlimited }

theorem advance_unlimited (now : Nat) (s : Stage) :
    s.unlimited.advance now = ((s.advance now).1.unlimited, (s.advance now).2) := by
  cases hoperation : s.operation with
  | read reader limit =>
    simp only [advance, unlimited, hoperation, Operation.unlimited]
    cases (reader.poll s.inbound).2.2 <;> rfl
  | write writer limit =>
    simp only [advance, unlimited, hoperation, Operation.unlimited]
    cases (writer.poll s.outbound).2.2 <;> rfl
  | collect seen quiet =>
    simp only [advance, unlimited, hoperation, Operation.unlimited]
    split
    · dsimp only
      split <;> rfl
    · rfl
  | idle | readDone | writeDone | collected =>
    simp only [advance, unlimited, hoperation, Operation.unlimited]

theorem turns_unlimited (now most : Nat) (s : Stage) :
    s.unlimited.turns now most = (s.turns now most).unlimited := by
  induction most generalizing s with
  | zero => rfl
  | succ most ih =>
    have haround : s.unlimited.around now = (s.around now).unlimited := rfl
    rw [turns_succ, turns_succ, haround, advance_unlimited, ih]
    split <;> rfl

theorem load_unlimited (s : Stage) : s.unlimited.load = s.load := by
  cases hoperation : s.operation <;>
    simp only [load, unlimited, hoperation, Operation.unlimited, Operation.size]

theorem cut_unlimited (now : Nat) (s : Stage) : s.unlimited.cut now = s.unlimited := by
  cases hoperation : s.operation <;>
    simp only [cut, unlimited, hoperation, Operation.unlimited]

theorem settle_unlimited (now : Nat) (s : Stage) :
    s.unlimited.settle now = (s.turns now s.load).unlimited := by
  rw [settle, load_unlimited, turns_unlimited, cut_unlimited]

variable {now : Nat} {s : Stage} {limit : Limit}

/-- An operation goes on as long as its limit has not passed. -/
theorem cut_early (limited : s.operation.limit? = some limit) (early : now < limit.deadline) :
    s.cut now = s := by
  have hnot : ¬ limit.deadline ≤ now := Nat.not_le.2 early
  cases hoperation : s.operation with
  | read reader l | write writer l =>
    rw [hoperation, Operation.limit?] at limited
    subst limited
    simp only [cut, hoperation, if_neg hnot]
  | idle | collect | readDone | writeDone | collected =>
    simp [hoperation, Operation.limit?] at limited

/-! ## When the clock goes on -/

/-- With a limit, something also happens when it passes. -/
theorem next_limited (limited : s.operation.limit? = some limit) :
    s.next? = some (min (s.unlimited.next?.getD limit.deadline) limit.deadline) := by
  have hsplit : s.next? = ((feedDue? s.plan).toList ++ (takeDue? s.takes).toList ++
      [limit.deadline]).min? ∧
      s.unlimited.next? = ((feedDue? s.plan).toList ++ (takeDue? s.takes).toList).min? := by
    cases hoperation : s.operation with
    | read reader l | write writer l =>
      rw [hoperation, Operation.limit?] at limited
      subst limited
      constructor
      · simp only [next?, hoperation, Option.map_some, Option.toList_some]
      · simp only [next?, unlimited, hoperation, Operation.unlimited, Option.map_none,
          Option.toList_none, List.append_nil]
    | idle | collect | readDone | writeDone | collected =>
      simp [hoperation, Operation.limit?] at limited
  rw [hsplit.1, hsplit.2]
  cases feedDue? s.plan <;> cases takeDue? s.takes <;>
    simp [List.min?_cons, Nat.min_assoc]

/-- Nobody goes on before something happens by itself. -/
theorem due_of_next {time : Nat} (busy : s.operation.isBusy = true)
    (before : ∀ due, s.unlimited.next? = some due → time < due) :
    (∀ due, feedDue? s.plan = some due → time < due) ∧
    ∀ due, takeDue? s.takes = some due → time < due := by
  have hnext : s.unlimited.next? =
      ((feedDue? s.plan).toList ++ (takeDue? s.takes).toList).min? := by
    cases hoperation : s.operation with
    | read | write =>
      simp only [next?, unlimited, hoperation, Operation.unlimited, Option.map_none,
        Option.toList_none, List.append_nil]
    | idle | collect | readDone | writeDone | collected =>
      simp [hoperation, Operation.isBusy] at busy
  rw [hnext] at before
  have hall : ∀ due ∈ (feedDue? s.plan).toList ++ (takeDue? s.takes).toList, time < due := by
    intro due hdue
    obtain ⟨first, hfirst⟩ := Option.isSome_iff_exists.1 (List.isSome_min?_of_mem hdue)
    have hle : first ≤ due := (List.min?_eq_some_iff.1 hfirst).2 due hdue
    exact Nat.lt_of_lt_of_le (before first hfirst) hle
  exact ⟨fun due h => hall due (List.mem_append_left _ (by simp [h])),
    fun due h => hall due (List.mem_append_right _ (by simp [h]))⟩

/-! ## Waiting under a limit -/

/-- What is found of an operation that was begun under a limit: nothing before it is done,
and that it is late when the limit has passed. -/
structure Watch (limit : Limit) {α : Type} (find : Operation → Option α) (late : α)
    (Under : Operation → Prop) : Prop where
  keeps : ∀ (s : Stage) (now : Nat), Under s.operation → Under (s.advance now).1.operation
  blind : ∀ operation, find operation.unlimited = find operation
  found : ∀ operation, Under operation → (find operation = none ↔ operation.isBusy = true)
  stays : ∀ (s : Stage) (now : Nat), Under s.operation → s.operation.isBusy = false →
    s.advance now = (s, false)
  limited : ∀ operation, Under operation → operation.isBusy = true →
    operation.limit? = some limit
  cuts : ∀ (s : Stage) (now : Nat), Under s.operation → s.operation.isBusy = true →
    limit.deadline ≤ now → Under (s.cut now).operation ∧ find (s.cut now).operation = some late

variable {α : Type} {find : Operation → Option α} {late : α} {Under : Operation → Prop}

theorem Watch.turns (w : Watch limit find late Under) (h : Under s.operation) (now most : Nat) :
    Under (s.turns now most).operation := by
  induction most generalizing s with
  | zero => exact h
  | succ most ih =>
    have hnext := w.keeps (s.around now) now h
    rw [turns_succ]
    split
    · exact ih hnext
    · exact hnext

/-- What was found is found again. -/
theorem Watch.settle_idle (w : Watch limit find late Under) (h : Under s.operation)
    (idle : s.operation.isBusy = false) (now : Nat) :
    (s.settle now).operation = s.operation := by
  have hturns : ∀ most, (s.turns now most).operation = s.operation := by
    intro most
    cases most with
    | zero => rfl
    | succ most =>
      have hstays := w.stays (s.around now) now h idle
      rw [turns_succ, hstays]
      rfl
  rw [settle, cut_idle (by rw [hturns, idle]), hturns]

theorem Watch.idle_of_found (w : Watch limit find late Under) (h : Under s.operation) {a : α}
    (found : find s.operation = some a) : s.operation.isBusy = false := by
  have hnot := (w.found s.operation h).not.1 (by rw [found]; nofun)
  simpa using hnot

theorem Watch.cut_early (w : Watch limit find late Under) (h : Under s.operation)
    (early : now < limit.deadline) : s.cut now = s := by
  cases hbusy : s.operation.isBusy with
  | true => exact Stage.cut_early (w.limited _ h hbusy) early
  | false => exact cut_idle hbusy now

/-- A limit has passed, and nothing was found by then. -/
theorem Watch.late_settle (w : Watch limit find late Under) (h : Under s.operation)
    (passed : limit.deadline ≤ now) (busy : (s.turns now s.load).operation.isBusy = true) :
    find (s.settle now).operation = some late :=
  (w.cuts _ now (w.turns h now s.load) busy passed).2

end Stage

theorem Clockwork.le_await {σ α : Type} (k : Clockwork σ) (look : σ → Option α)
    (limit now : Nat) (s : σ) : now ≤ (k.await look limit now s).2.1 := by
  induction now, s using Clockwork.await.induct k look limit with
  | case1 now s a found => exact Nat.le_of_eq (by rw [k.await_found found])
  | case2 now s none before t ih =>
    rw [await, none]
    simp only [before, if_true]
    exact Nat.le_trans (by omega) ih
  | case3 now s none late =>
    rw [await, none]
    simp only [late, if_false]
    exact Nat.le_refl now

/-- What is found at once is found without a wait. -/
theorem Clockwork.none_of_wait {σ α : Type} (k : Clockwork σ) {look : σ → Option α}
    {limit now : Nat} {s : σ} (wait : (k.await look limit now s).1 = none ∨
      now < (k.await look limit now s).2.1) : look s = none := by
  cases found : look s with
  | none => rfl
  | some a =>
    rw [k.await_found found] at wait
    rcases wait with hnone | hlater
    · cases hnone
    · exact absurd hlater (Nat.lt_irrefl now)

namespace Stage

/-- What comes of an operation under a limit, by what comes of it without one: the same if
it is done before the limit has passed, and that it is late, at just that instant, if it is
not done then. -/
def CutBy {α : Type} (deadline : Nat) (late : α) (free limited : Option α × Nat × Stage) : Prop :=
  (free.1 ≠ none → free.2.1 < deadline → limited = free) ∧
  (free.1 = none ∨ deadline < free.2.1 → limited.1 = some late ∧ limited.2.1 = deadline)

variable {now patience : Nat} {s : Stage} {limit : Limit} {α : Type} {find : Operation → Option α}
  {late : α} {Under : Operation → Prop}

/-- The two clocks go on to the same instant, if that is before the limit passes, and
otherwise the one goes on to where it passes. -/
theorem next_instants (limited : s.operation.limit? = some limit) (before : now < limit.deadline)
    (enough : limit.deadline ≤ patience) :
    max (now + 1) (min patience (s.next?.getD patience)) =
      min limit.deadline (max (now + 1) (min patience (s.unlimited.next?.getD patience))) := by
  rw [next_limited limited, Option.getD_some]
  cases s.unlimited.next? with
  | none =>
    simp only [Option.getD_none]
    omega
  | some time =>
    simp only [Option.getD_some]
    omega

/-- An operation is late when its limit passes: nothing happens before the one without limit
goes on, and if this one does so just then, it is not done by that. -/
theorem Watch.late_at_limit (w : Watch limit find late Under) (h : Under s.operation)
    (busy : s.operation.isBusy = true) (still : Still now s) (before : now < limit.deadline)
    {t : Nat} (instant : t = max (now + 1) (min patience (s.unlimited.next?.getD patience)))
    (due : limit.deadline ≤ t)
    (unfound : limit.deadline = t → find (s.turns t s.load).operation = none) :
    find (s.settle limit.deadline).operation = some late := by
  rcases Nat.eq_or_lt_of_le due with hsame | hafter
  · have hbusy := (w.found _ (w.turns h t s.load)).1 (unfound hsame)
    rw [hsame]
    exact w.late_settle h (Nat.le_of_eq hsame) hbusy
  · have hbefore : ∀ time, s.unlimited.next? = some time → limit.deadline < time := by
      intro time htime
      rw [instant, htime, Option.getD_some] at hafter
      omega
    obtain ⟨hfeeds, htakes⟩ := due_of_next busy hbefore
    rw [(still.later busy hfeeds htakes).settle]
    exact (w.cuts s _ h busy (Nat.le_refl _)).2

theorem Watch.await (w : Watch limit find late Under) (h : Under s.operation)
    (still : s.operation.isBusy = true → Still now s) (before : now < limit.deadline)
    (enough : limit.deadline ≤ patience) :
    CutBy limit.deadline late
      (clockwork.await (fun s => find s.operation) patience now s.unlimited)
      (clockwork.await (fun s => find s.operation) patience now s) := by
  induction hleft : patience - now using Nat.strongRecOn generalizing now s with
  | ind left ih =>
    cases hfind : find s.operation with
    | some a =>
      have hsame : s.unlimited = s := by
        rw [unlimited, Operation.unlimited_of_idle (w.idle_of_found h hfind)]
      rw [hsame, Clockwork.await_found clockwork hfind]
      refine ⟨fun _ _ => rfl, fun hnone => ?_⟩
      rcases hnone with hnone | hlate
      · cases hnone
      · exact absurd (Nat.lt_trans before hlate) (Nat.lt_irrefl _)
    | none =>
      have busy := (w.found s.operation h).1 hfind
      have hfree : find s.unlimited.operation = none := (w.blind s.operation).trans hfind
      have hgoes : now < patience := by omega
      have hinstants := next_instants (w.limited s.operation h busy) before enough
      let t := max (now + 1) (min patience (s.unlimited.next?.getD patience))
      have hstep : clockwork.await (fun s => find s.operation) patience now s =
          clockwork.await (fun s => find s.operation) patience (min limit.deadline t)
            (s.settle (min limit.deadline t)) := by
        rw [← hinstants, Clockwork.await, hfind]
        simp only [hgoes, if_true]
        rfl
      have hstep' : clockwork.await (fun s => find s.operation) patience now s.unlimited =
          clockwork.await (fun s => find s.operation) patience t (s.unlimited.settle t) := by
        rw [Clockwork.await, hfree]
        simp only [hgoes, if_true]
        rfl
      have hunder := w.turns h t s.load
      rw [hstep, hstep', settle_unlimited]
      by_cases early : t < limit.deadline
      · -- Both worlds go on to the same instant, and nothing is cut there.
        have hcut : s.settle t = s.turns t s.load := w.cut_early hunder early
        rw [Nat.min_eq_right (Nat.le_of_lt early), hcut]
        exact ih (patience - t) (by omega) hunder (fun hbusy => hcut ▸ settle_still
          (hcut ▸ hbusy)) early rfl
      · -- The one with a limit stops there, and the other one goes on at least as far.
        have hdue : limit.deadline ≤ t := Nat.le_of_not_lt early
        have hlast := clockwork.le_await (fun s => find s.operation) patience t
          (s.turns t s.load).unlimited
        rw [Nat.min_eq_left hdue]
        refine ⟨fun _ hearly => absurd hearly (by omega), fun hopen => ?_⟩
        have hunfound : limit.deadline = t → find (s.turns t s.load).operation = none :=
          fun hsame => (w.blind _).symm.trans (clockwork.none_of_wait (hsame ▸ hopen))
        have hlate := w.late_at_limit h busy (still busy) before rfl hdue hunfound
        rw [Clockwork.await_found clockwork hlate]
        exact ⟨rfl, rfl⟩

/-- The first try is made before anything else happens. -/
theorem Watch.attempt (w : Watch limit find late Under) (h : Under s.operation)
    (notPast : now ≤ limit.deadline) (enough : limit.deadline ≤ patience) :
    CutBy limit.deadline late
      (clockwork.await (fun s => find s.operation) patience now (s.unlimited.attempt now))
      (clockwork.await (fun s => find s.operation) patience now (s.attempt now)) := by
  have hunder := w.keeps s now h
  have hfree : s.unlimited.attempt now = (s.advance now).1.unlimited.settle now := by
    rw [Stage.attempt, advance_unlimited, cut_unlimited]
  rcases Nat.lt_or_eq_of_le notPast with early | hsame
  · have hturns := w.turns hunder now (s.advance now).1.load
    have hcut : s.attempt now = (s.advance now).1.turns now (s.advance now).1.load := by
      rw [Stage.attempt, w.cut_early hunder early]
      exact w.cut_early hturns early
    have hstill : (s.attempt now).operation.isBusy = true → Still now (s.attempt now) := settle_still
    rw [hfree, settle_unlimited, ← hcut]
    exact w.await (hcut ▸ hturns) hstill early enough
  · -- There is no time to wait: what the first try does not find is late.
    have hlast := clockwork.le_await (fun s => find s.operation) patience now
      (s.unlimited.attempt now)
    refine ⟨fun _ hearly => absurd hearly (by omega), fun hopen => ?_⟩
    cases hbusy : (s.advance now).1.operation.isBusy with
    | true =>
      obtain ⟨hcut, hfind⟩ := w.cuts _ now hunder hbusy (Nat.le_of_eq hsame.symm)
      have hlate : find (s.attempt now).operation = some late := by
        rw [Stage.attempt, w.settle_idle hcut (w.idle_of_found hcut hfind), hfind]
      rw [Clockwork.await_found clockwork hlate]
      exact ⟨rfl, hsame⟩
    | false =>
      rw [← hsame] at hopen
      have hnone := clockwork.none_of_wait hopen
      rw [hfree, unlimited, Operation.unlimited_of_idle hbusy, w.settle_idle hunder hbusy] at hnone
      rw [(w.found _ hunder).1 hnone] at hbusy
      cases hbusy

/-! ## Reading and writing -/

/-- What is found of a read. -/
def found? : Operation → Option (Except LinkError Bytes)
  | .readDone result => some result
  | _ => none

/-- What is found of a write. -/
def written? : Operation → Option (Except LinkError Unit)
  | .writeDone result => some result
  | _ => none

theorem read_watch (limit : Limit) :
    Watch limit found? (.error (.timeout .receive limit.span)) (Operation.Reading limit) where
  keeps s now h := by
    generalize hoperation : s.operation = operation at h
    cases h with
    | going reader =>
      simp only [advance, hoperation]
      cases (reader.poll s.inbound).2.2 with
      | none => exact .going _
      | some result => exact .done result
    | done result =>
      simp only [advance, hoperation]
      exact .done result
  blind operation := by cases operation <;> rfl
  found operation h := by cases h <;> simp [found?, Operation.isBusy]
  stays s now h idle := by
    generalize hoperation : s.operation = operation at h
    cases h with
    | going reader => simp [hoperation, Operation.isBusy] at idle
    | done result => simp only [advance, hoperation]
  limited operation h busy := by
    cases h with
    | going reader => rfl
    | done result => cases busy
  cuts s now h busy passed := by
    generalize hoperation : s.operation = operation at h
    cases h with
    | going reader =>
      simp only [cut, hoperation, if_pos passed]
      exact ⟨.done _, rfl⟩
    | done result => simp [hoperation, Operation.isBusy] at busy

theorem write_watch (limit : Limit) :
    Watch limit written? (.error (.timeout .send limit.span)) (Operation.Writing limit) where
  keeps s now h := by
    generalize hoperation : s.operation = operation at h
    cases h with
    | going writer =>
      simp only [advance, hoperation]
      cases (writer.poll s.outbound).2.2 with
      | none => exact .going _
      | some result => exact .done result
    | done result =>
      simp only [advance, hoperation]
      exact .done result
  blind operation := by cases operation <;> rfl
  found operation h := by cases h <;> simp [written?, Operation.isBusy]
  stays s now h idle := by
    generalize hoperation : s.operation = operation at h
    cases h with
    | going writer => simp [hoperation, Operation.isBusy] at idle
    | done result => simp only [advance, hoperation]
  limited operation h busy := by
    cases h with
    | going writer => rfl
    | done result => cases busy
  cuts s now h busy passed := by
    generalize hoperation : s.operation = operation at h
    cases h with
    | going writer =>
      simp only [cut, hoperation, if_pos passed]
      exact ⟨.done _, rfl⟩
    | done result => simp [hoperation, Operation.isBusy] at busy

/-- **A deadline only cuts a framed operation.** Whatever comes in and goes out, and when: an
operation that would be done before its limit has passed is done in the same way and at the
same instant, and leaves the same stage behind. One that would take longer fails when the
limit has passed since it was begun, at just that instant, however many bytes it has moved
until then. (Where it would be done at just that instant, this says nothing.) -/
theorem deadline_only_cuts (s : Stage) (now : Nat) (span : Duration) (patience : Nat)
    (enough : span.after now ≤ patience) :
    CutBy (span.after now) (.error (.timeout .receive span)) (s.read now none patience)
      (s.read now (some span) patience) ∧
    ∀ payload, CutBy (span.after now) (.error (.timeout .send span))
      (s.write now none payload patience) (s.write now (some span) payload patience) := by
  have notPast : now ≤ span.after now := Nat.le_add_right now span.ceilMillis
  let limit : Limit := { span, deadline := span.after now }
  constructor
  · exact (read_watch limit).attempt (s := s.beginRead now (some span)) (.going .start) notPast
      enough
  · intro payload
    exact (write_watch limit).attempt (s := s.beginWrite now (some span) payload)
      (.going (.ofPayload payload)) notPast enough

/-- A frame comes in three parts, five milliseconds from each other, and one with as many
bytes has to wait for space. -/
def trickle : Stage where
  inbound := {}
  plan := [.bytes [0, 0], .wait (.ofMillis 5), .bytes [0, 1], .wait (.ofMillis 5), .bytes [7]]
  outbound := { capacity := 3 }
  takes := [.wait (.ofMillis 4), .bytes 2]

theorem deadline_cuts_trickle :
    (Duration.ofMillis 20).after 0 ≤ 50 ∧ (Duration.ofMillis 8).after 0 ≤ 50 ∧
    (trickle.read 0 (some (.ofMillis 20)) 50).1 = some (.ok [7]) ∧
    (trickle.read 0 (some (.ofMillis 20)) 50).2.1 = 10 ∧
    (trickle.read 0 (some (.ofMillis 8)) 50).1 =
      some (.error (.timeout .receive (.ofMillis 8))) ∧
    (trickle.read 0 (some (.ofMillis 8)) 50).2.1 = 8 ∧
    (trickle.write 0 (some (.ofMillis 8)) [7] 50).1 = some (.ok ()) ∧
    (trickle.write 0 (some (.ofMillis 8)) [7] 50).2.1 = 4 ∧
    (trickle.write 0 (some (.ofMillis 3)) [7] 50).1 =
      some (.error (.timeout .send (.ofMillis 3))) ∧
    (trickle.write 0 (some (.ofMillis 3)) [7] 50).2.1 = 3 := by
  have hread : (trickle.read 0 none 50).1 = some (.ok [7]) ∧ (trickle.read 0 none 50).2.1 = 10 :=
    ⟨by decide +kernel, by decide +kernel⟩
  have hwrite : (trickle.write 0 none [7] 50).1 = some (.ok ()) ∧
      (trickle.write 0 none [7] 50).2.1 = 4 := ⟨by decide +kernel, by decide +kernel⟩
  obtain ⟨hread20, -⟩ := deadline_only_cuts trickle 0 (.ofMillis 20) 50 (by decide)
  obtain ⟨hread8, hwrite8⟩ := deadline_only_cuts trickle 0 (.ofMillis 8) 50 (by decide)
  obtain ⟨-, hwrite3⟩ := deadline_only_cuts trickle 0 (.ofMillis 3) 50 (by decide)
  have hsame := hread20.1 (by rw [hread.1]; decide) (by rw [hread.2]; decide)
  have hsame' := (hwrite8 [7]).1 (by rw [hwrite.1]; decide) (by rw [hwrite.2]; decide)
  have hcut := hread8.2 (.inr (by rw [hread.2]; decide))
  have hcut' := (hwrite3 [7]).2 (.inr (by rw [hwrite.2]; decide))
  rw [hsame, hsame']
  exact ⟨by decide, by decide, hread.1, hread.2, hcut.1, hcut.2, hwrite.1, hwrite.2, hcut'.1,
    hcut'.2⟩

end Stage

end RpcClient
