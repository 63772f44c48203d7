/-
What an operation with a time limit has moved when it ends. Whatever the feeder and
the taker do meanwhile, a read takes the next bytes of its stream (`Moves.inbound`) and a
write puts the first bytes of its frame on the other one (`Moves.outbound`). When the
limit has passed they are not put back and not finished: `Account` says of each result
what was moved, and `Doing` that this is so at every instant of an operation.

What is put on the stream leaves it at its front, for whoever looks at it or for the taker:
of the bytes that have gone those were collected that the operation found, and the others
are as many as the taker was told to take (`Moves.taker`).
-/
import RpcClient.Proofs.Stream.FirstFrame
import RpcClient.Proofs.Stream.InOrder
import RpcClient.Stream.Stage

namespace RpcClient

open Framing (framed first?)

/-! ## Reading from the beginning -/

namespace FrameReader

variable {r : FrameReader} {bytes : Bytes}

theorem first?_of_none (h : start.read bytes = (r, none, [])) : first? bytes = none := by
  rw [← first?_eq, h]

/-- A length that is too long is refused with its last byte. -/
theorem start_read_fault {fault : FrameFault} (h : start.read bytes = (r, some (.error fault), [])) :
    bytes.length = 4 ∧ first? bytes = some (.error fault) := by
  have hfirst : first? bytes = some (.error fault) := by rw [← first?_eq, h]
  refine ⟨?_, hfirst⟩
  by_cases few : bytes.length < 4
  · rw [start_read_few few] at h
    cases h
  · obtain ⟨a, b, d, e, rest, rfl⟩ := exists_four few
    rw [start_read_four] at h
    dsimp only at h
    split at h
    · simp only [Prod.mk.injEq] at h
      simp [h.2.2]
    · split at h <;> cases h

end FrameReader

namespace Stage

/-! ## What is still to come -/

/-- The bytes that a plan brings before it ends the stream. -/
def arriving : List Feed → Bytes
  | [] => []
  | .bytes bytes :: plan => bytes ++ arriving plan
  | .finish :: _ => []
  | .wait _ :: plan | .resume _ :: plan => arriving plan

/-- The bytes in a pipe, and those that a plan is going to bring. -/
def incoming (p : Pipe) (plan : List Feed) : Bytes :=
  p.buffer ++ if p.closed then [] else arriving plan

/-- All bytes that are still to be read. -/
def ahead (s : Stage) : Bytes := incoming s.inbound s.plan

/-- The feeder brings what was to come. -/
theorem feed_incoming (now : Nat) (plan : List Feed) (p : Pipe) :
    incoming (feed now plan p).1 (feed now plan p).2 = incoming p plan := by
  induction plan generalizing p with
  | nil => rfl
  | cons first plan ih =>
    cases first with
    | bytes bytes =>
      cases hclosed : p.closed with
      | true =>
        simp only [feed, Pipe.write_closed hclosed, ih]
        simp [incoming, hclosed]
      | false =>
        rw [feed, Pipe.write_open hclosed]
        cases hrest : bytes.drop p.space with
        | nil =>
          have hall : bytes.take p.space = bytes := by
            have hsplit := List.take_append_drop p.space bytes
            rwa [hrest, List.append_nil] at hsplit
          simp only [ih, hall]
          simp [incoming, hclosed, arriving]
        | cons b rest =>
          simp only [incoming, hclosed, arriving, Bool.false_eq_true, if_false, List.append_assoc]
          rw [← hrest, ← List.append_assoc (bytes.take p.space), List.take_append_drop]
    | wait span =>
      simp only [feed]
      split
      · exact ih p
      · rfl
    | resume time =>
      simp only [feed]
      split
      · exact ih p
      · rfl
    | finish =>
      rw [feed, ih]
      simp [incoming, Pipe.close, arriving]

/-- How many bytes a taker is still to take. -/
def demand : List Take → Nat
  | [] => 0
  | .bytes count :: takes => count + demand takes
  | .wait _ :: takes | .resume _ :: takes | .leave :: takes => demand takes

/-- The taker takes from the front, and then it has so much less to take. -/
theorem take_front (now : Nat) (takes : List Take) (p : Pipe) :
    ∃ gone, p.buffer = gone ++ (take now takes p).1.buffer ∧
      demand takes = gone.length + demand (take now takes p).2 := by
  induction takes generalizing p with
  | nil => exact ⟨[], rfl, rfl⟩
  | cons first takes ih =>
    cases first with
    | bytes count =>
      have hsplit : p.buffer = p.buffer.take count ++ p.buffer.drop count :=
        (List.take_append_drop count _).symm
      simp only [take]
      split
      · next enough =>
        obtain ⟨gone, hgone, hless⟩ := ih { p with buffer := p.buffer.drop count }
        refine ⟨p.buffer.take count ++ gone, ?_, ?_⟩
        · rw [List.append_assoc, ← hgone]
          exact hsplit
        · rw [demand, hless, List.length_append, List.length_take, Nat.min_eq_left enough,
            Nat.add_assoc]
      · refine ⟨p.buffer.take count, hsplit, ?_⟩
        simp only [demand, List.length_take]
        omega
    | wait span =>
      simp only [take]
      split
      · exact ih p
      · exact ⟨[], rfl, (Nat.zero_add _).symm⟩
    | resume time =>
      simp only [take]
      split
      · exact ih p
      · exact ⟨[], rfl, (Nat.zero_add _).symm⟩
    | leave => exact ih p.close

/-! ## What has been moved -/

/-- Between two states some bytes were taken off the one stream and some were put on the
other, from whose front some have gone. -/
structure Moves (s s' : Stage) (taken put gone got : Bytes) : Prop where
  inbound : s.ahead = taken ++ s'.ahead
  outbound : s.outbound.buffer ++ put = gone ++ s'.outbound.buffer
  /-- What the operation has collected is among what has gone, -/
  collected : got.Sublist gone
  /-- and the taker has got all else. -/
  taker : demand s.takes + got.length = gone.length + demand s'.takes

variable {s₀ s s' : Stage} {taken taken' put put' gone gone' got got' : Bytes}

theorem Moves.inward (inbound : s.ahead = taken ++ s'.ahead) (outbound : s'.outbound = s.outbound)
    (takes : s'.takes = s.takes) : Moves s s' taken [] [] [] :=
  ⟨inbound, by rw [outbound, List.append_nil, List.nil_append], .slnil, by simp [takes]⟩

theorem Moves.outward (inbound : s'.ahead = s.ahead)
    (outbound : s'.outbound.buffer = s.outbound.buffer ++ put) (takes : s'.takes = s.takes) :
    Moves s s' [] put [] [] :=
  ⟨inbound.symm, outbound.symm, .slnil, by simp [takes]⟩

theorem Moves.same (s : Stage) : Moves s s [] [] [] [] := .inward rfl rfl rfl

theorem Moves.trans (h : Moves s₀ s taken put gone got) (h' : Moves s s' taken' put' gone' got') :
    Moves s₀ s' (taken ++ taken') (put ++ put') (gone ++ gone') (got ++ got') where
  inbound := by rw [h.inbound, h'.inbound, List.append_assoc]
  outbound := by
    rw [← List.append_assoc, h.outbound, List.append_assoc, h'.outbound, List.append_assoc]
  collected := h.collected.append h'.collected
  taker := by
    have htaker := h.taker
    have htaker' := h'.taker
    simp only [List.length_append]
    omega

/-- What is done on a stage, without how far it has come. -/
inductive Job where
  | idle
  | read
  | write (payload : Bytes)
  | collect

/-- What of its frame a read has taken, by its result; it has none if it is dropped. -/
inductive Took : Option (Except LinkError Bytes) → Bytes → Prop
  | frame {payload : Bytes} (fits : payload.length ≤ Framing.maxLength) :
    Took (some (.ok payload)) (framed payload)
  /-- Four bytes that are no length. -/
  | fault {fault : FrameFault} {taken : Bytes} (four : taken.length = 4)
      (first : first? taken = some (.error fault)) :
    Took (some (.error (.invalidFrame fault))) taken
  /-- The stream has ended, within a frame or before it. -/
  | ended {taken : Bytes} (first : first? taken = none) : Took (some (.error .closed)) taken
  | late {taken : Bytes} {span : Duration} (first : first? taken = none) :
    Took (some (.error (.timeout .receive span))) taken
  | dropped {taken : Bytes} (first : first? taken = none) : Took none taken

/-- What of the frame of a payload a write has put on its stream, by its result. -/
inductive Put (payload : Bytes) : Option (Except LinkError Unit) → Bytes → Prop
  | frame : Put payload (some (.ok ())) (framed payload)
  /-- Nobody is going to read the rest. -/
  | broken {put rest : Bytes} (front : put ++ rest = framed payload) (more : rest ≠ []) :
    Put payload (some (.error (.io .brokenPipe))) put
  | late {put rest : Bytes} {span : Duration} (front : put ++ rest = framed payload)
      (more : rest ≠ []) : Put payload (some (.error (.timeout .send span))) put
  | dropped {put rest : Bytes} (front : put ++ rest = framed payload) (more : rest ≠ []) :
    Put payload none put

/-- What was taken, put and collected for a job, as its operation stands. -/
inductive Account : Job → (taken put got : Bytes) → Operation → Prop
  | idle : Account .idle [] [] [] .idle
  | reading {taken : Bytes} {reader : FrameReader} {limit : Option Limit}
      (h : FrameReader.start.read taken = (reader, none, [])) :
    Account .read taken [] [] (.read reader limit)
  | readDone {taken : Bytes} {result : Except LinkError Bytes} (h : Took (some result) taken) :
    Account .read taken [] [] (.readDone result)
  | writing {payload put : Bytes} {writer : FrameWriter} {limit : Option Limit}
      (front : put ++ writer.rest = framed payload) (more : writer.rest ≠ []) :
    Account (.write payload) [] put [] (.write writer limit)
  | writeDone {payload put : Bytes} {result : Except LinkError Unit}
      (h : Put payload (some result) put) :
    Account (.write payload) [] put [] (.writeDone result)
  | collecting {seen : Bytes} {quiet : Nat} : Account .collect [] [] seen (.collect seen quiet)
  | collected {bytes : Bytes} : Account .collect [] [] bytes (.collected bytes)

variable {job : Job} {now : Nat}

/-- One turn of a read. -/
theorem Account.advance_read {reader : FrameReader} {limit : Option Limit}
    (operation : s.operation = .read reader limit)
    (h : FrameReader.start.read taken = (reader, none, [])) :
    ∃ taken', Moves s (s.advance now).1 taken' [] [] [] ∧
      Account .read (taken ++ taken') [] [] (s.advance now).1.operation := by
  obtain ⟨-, hmore⟩ := FrameReader.read_none h
  rcases hread : reader.read s.inbound.buffer with ⟨r, result, rest⟩
  obtain ⟨front, hfront⟩ := FrameReader.read_suffix hread
  have hwhole : FrameReader.start.read (taken ++ front ++ rest) = (r, result, rest) := by
    rw [List.append_assoc, hfront, hmore, hread]
  have hmoves : ∀ operation, Moves s
      { s with inbound := { s.inbound with buffer := rest }, operation } front [] [] [] := by
    intro operation
    refine .inward ?_ rfl rfl
    rw [ahead, ahead, incoming, incoming, ← hfront, List.append_assoc]
  cases result with
  | none =>
    obtain ⟨rfl, -⟩ := FrameReader.read_none hread
    rw [List.append_nil] at hwhole
    have hpoll : reader.poll s.inbound = (r, { s.inbound with buffer := [] },
        if s.inbound.closed then some (.error .closed) else none) := by
      rw [FrameReader.poll, hread]
    cases hclosed : s.inbound.closed with
    | true =>
      simp only [advance, operation, hpoll, hclosed, if_true]
      exact ⟨front, hclosed ▸ hmoves _, .readDone (.ended (FrameReader.first?_of_none hwhole))⟩
    | false =>
      simp only [advance, operation, hpoll, hclosed, Bool.false_eq_true, if_false]
      exact ⟨front, hclosed ▸ hmoves _, .reading hwhole⟩
  | some result =>
    have hend := FrameReader.read_front hwhole
    cases result with
    | ok payload =>
      have hpoll : reader.poll s.inbound =
          (r, { s.inbound with buffer := rest }, some (.ok payload)) := by
        rw [FrameReader.poll, hread]
      obtain ⟨-, hbytes, hfits⟩ := FrameReader.start_read_ok hend
      rw [List.append_nil] at hbytes
      simp only [advance, operation, hpoll]
      exact ⟨front, hmoves _, .readDone (hbytes ▸ .frame hfits)⟩
    | error fault =>
      have hpoll : reader.poll s.inbound =
          (r, { s.inbound with buffer := rest }, some (.error (.invalidFrame fault))) := by
        rw [FrameReader.poll, hread]
      obtain ⟨hfour, hfirst⟩ := FrameReader.start_read_fault hend
      simp only [advance, operation, hpoll]
      exact ⟨front, hmoves _, .readDone (.fault hfour hfirst)⟩

/-- One turn of a write. -/
theorem Account.advance_write {payload : Bytes} {writer : FrameWriter} {limit : Option Limit}
    (operation : s.operation = .write writer limit) (front : put ++ writer.rest = framed payload)
    (more : writer.rest ≠ []) :
    ∃ put', Moves s (s.advance now).1 [] put' [] [] ∧
      Account (.write payload) [] (put ++ put') [] (s.advance now).1.operation := by
  have hbusy : writer.isDone = false := by simpa [FrameWriter.isDone] using more
  cases hclosed : s.outbound.closed with
  | true =>
    have hpoll : writer.poll s.outbound =
        (writer, s.outbound, some (.error (.io .brokenPipe))) := by
      simp [FrameWriter.poll, hbusy, Pipe.write_closed hclosed]
    refine ⟨[], ?_, ?_⟩
    · simp only [advance, operation, hpoll]
      exact .inward rfl rfl rfl
    · simp only [advance, operation, hpoll, List.append_nil]
      exact .writeDone (.broken front more)
  | false =>
    have hsplit : writer.rest.take s.outbound.space ++ writer.rest.drop s.outbound.space =
        writer.rest := List.take_append_drop _ _
    have hpoll : writer.poll s.outbound =
        (⟨writer.rest.drop s.outbound.space⟩,
          { s.outbound with
            buffer := s.outbound.buffer ++ writer.rest.take s.outbound.space },
          if (writer.rest.drop s.outbound.space).isEmpty then some (.ok ()) else none) := by
      simp [FrameWriter.poll, hbusy, Pipe.write_open hclosed]
    refine ⟨writer.rest.take s.outbound.space, ?_, ?_⟩
    · simp only [advance, operation, hpoll]
      exact .outward rfl rfl rfl
    · simp only [advance, operation, hpoll]
      by_cases hdone : writer.rest.drop s.outbound.space = []
      · have hall : put ++ writer.rest.take s.outbound.space = framed payload := by
          rw [← front, ← hsplit, hdone, List.append_nil, List.take_take, Nat.min_self]
        rw [hdone, hall]
        exact .writeDone .frame
      · have hnot : (writer.rest.drop s.outbound.space).isEmpty = false := by simpa using hdone
        rw [hnot]
        refine .writing ?_ hdone
        rw [List.append_assoc, hsplit, front]

/-- One turn of an operation. -/
theorem Account.advance (h : Account job taken put got s.operation) (now : Nat) :
    ∃ taken' put' gone' got', Moves s (s.advance now).1 taken' put' gone' got' ∧
      Account job (taken ++ taken') (put ++ put') (got ++ got') (s.advance now).1.operation := by
  generalize hoperation : s.operation = operation at h
  have hstays : (s.advance now).1 = s → Account job taken put got operation →
      ∃ taken' put' gone' got', Moves s (s.advance now).1 taken' put' gone' got' ∧
        Account job (taken ++ taken') (put ++ put') (got ++ got') (s.advance now).1.operation := by
    intro hsame haccount
    refine ⟨[], [], [], [], ?_, ?_⟩
    · rw [hsame]
      exact .same s
    · rw [hsame, List.append_nil, List.append_nil, List.append_nil, hoperation]
      exact haccount
  cases h with
  | reading h =>
    obtain ⟨taken', hmoves, haccount⟩ := advance_read hoperation h
    exact ⟨taken', [], [], [], hmoves, haccount⟩
  | writing front more =>
    obtain ⟨put', hmoves, haccount⟩ := advance_write hoperation front more
    exact ⟨[], put', [], [], hmoves, haccount⟩
  | @collecting _ quiet =>
    cases hbuffer : s.outbound.buffer with
    | nil =>
      simp only [Stage.advance, hoperation, hbuffer, List.isEmpty_nil, if_true]
      refine ⟨[], [], [], [], .inward rfl rfl rfl, ?_⟩
      rw [List.append_nil, List.append_nil]
      split
      · exact .collected
      · exact .collecting
    | cons b rest =>
      simp only [Stage.advance, hoperation, hbuffer, List.isEmpty_cons, Bool.false_eq_true,
        if_false]
      refine ⟨[], [], b :: rest, b :: rest, ⟨rfl, ?_, .refl _, Nat.add_comm _ _⟩, .collecting⟩
      rw [hbuffer]
  | idle => exact hstays (by simp only [Stage.advance, hoperation]) .idle
  | readDone h => exact hstays (by simp only [Stage.advance, hoperation]) (.readDone h)
  | writeDone h => exact hstays (by simp only [Stage.advance, hoperation]) (.writeDone h)
  | collected => exact hstays (by simp only [Stage.advance, hoperation]) .collected

/-- An operation whose time has passed is dropped where it stands. -/
theorem Account.cut (h : Account job taken put got s.operation) (now : Nat) :
    Account job taken put got (s.cut now).operation := by
  generalize hoperation : s.operation = operation at h
  cases h with
  | @reading _ _ limit h =>
    cases limit with
    | none =>
      simp only [Stage.cut, hoperation]
      exact .reading h
    | some limit =>
      simp only [Stage.cut, hoperation]
      split
      · exact .readDone (.late (FrameReader.first?_of_none h))
      · rw [hoperation]
        exact .reading h
  | @writing _ _ _ limit front more =>
    cases limit with
    | none =>
      simp only [Stage.cut, hoperation]
      exact .writing front more
    | some limit =>
      simp only [Stage.cut, hoperation]
      split
      · exact .writeDone (.late front more)
      · rw [hoperation]
        exact .writing front more
  | idle => simpa only [Stage.cut, hoperation] using .idle
  | readDone h => simpa only [Stage.cut, hoperation] using .readDone h
  | writeDone h => simpa only [Stage.cut, hoperation] using .writeDone h
  | collecting => simpa only [Stage.cut, hoperation] using .collecting
  | collected => simpa only [Stage.cut, hoperation] using .collected

/-! ## At every instant of an operation -/

/-- A job was begun on one stage, and has come as far as another one. -/
def Doing (job : Job) (s₀ s : Stage) : Prop :=
  ∃ taken put gone got, Moves s₀ s taken put gone got ∧ Account job taken put got s.operation

/-- A job goes on with a part of it. -/
theorem Doing.step (h : Doing job s₀ s)
    (next : ∀ {taken put got}, Account job taken put got s.operation →
      ∃ taken' put' gone' got', Moves s s' taken' put' gone' got' ∧
        Account job (taken ++ taken') (put ++ put') (got ++ got') s'.operation) :
    Doing job s₀ s' := by
  obtain ⟨taken, put, gone, got, hmoves, haccount⟩ := h
  obtain ⟨taken', put', gone', got', hmoves', haccount'⟩ := next haccount
  exact ⟨_, _, _, _, hmoves.trans hmoves', haccount'⟩

theorem Doing.advance (h : Doing job s₀ s) (now : Nat) : Doing job s₀ (s.advance now).1 :=
  h.step fun haccount => haccount.advance now

theorem cut_moves (now : Nat) (s : Stage) : Moves s (s.cut now) [] [] [] [] := by
  have hsame : (s.cut now).inbound = s.inbound ∧ (s.cut now).plan = s.plan ∧
      (s.cut now).outbound = s.outbound ∧ (s.cut now).takes = s.takes := by
    simp only [cut]
    split
    · split <;> exact ⟨rfl, rfl, rfl, rfl⟩
    · split <;> exact ⟨rfl, rfl, rfl, rfl⟩
    · exact ⟨rfl, rfl, rfl, rfl⟩
  obtain ⟨hinbound, hplan, houtbound, htakes⟩ := hsame
  refine .inward ?_ houtbound htakes
  rw [ahead, ahead, hinbound, hplan, List.nil_append]

theorem Doing.cut (h : Doing job s₀ s) (now : Nat) : Doing job s₀ (s.cut now) :=
  h.step fun {taken put got} haccount =>
    ⟨[], [], [], [], cut_moves now s, by simpa only [List.append_nil] using haccount.cut now⟩

/-- The feeder and the taker do their part. -/
theorem Doing.around (h : Doing job s₀ s) (now : Nat) :
    Doing job s₀ { s with
      inbound := (feed now s.plan s.inbound).1
      plan := (feed now s.plan s.inbound).2
      outbound := (take now s.takes s.outbound).1
      takes := (take now s.takes s.outbound).2 } := by
  obtain ⟨gone, hgone, hless⟩ := take_front now s.takes s.outbound
  refine h.step fun {taken put got} haccount => ⟨[], [], gone, [], ⟨?_, ?_, ?_, ?_⟩, ?_⟩
  · exact (feed_incoming now s.plan s.inbound).symm
  · rw [List.append_nil]
    exact hgone
  · exact List.nil_sublist gone
  · exact hless
  · simpa only [List.append_nil] using haccount

theorem Doing.turns (h : Doing job s₀ s) (now most : Nat) : Doing job s₀ (s.turns now most) := by
  induction most generalizing s with
  | zero => exact h
  | succ most ih =>
    have hnext := (h.around now).advance now
    simp only [Stage.turns]
    split
    · exact ih hnext
    · exact hnext

theorem Doing.settle (h : Doing job s₀ s) (now : Nat) : Doing job s₀ (s.settle now) :=
  (h.turns now s.load).cut now

theorem Doing.attempt (h : Doing job s₀ s) (now : Nat) : Doing job s₀ (s.attempt now) :=
  ((h.advance now).cut now).settle now

end Stage

/-- What every instant keeps holds where a wait ends. -/
theorem Clockwork.await_keeps {σ α : Type} (k : Clockwork σ) {P : σ → Prop}
    (keeps : ∀ t s, P s → P (k.settle t s)) (look : σ → Option α) (limit now : Nat) (s : σ)
    (h : P s) : P (k.await look limit now s).2.2 := by
  induction now, s using Clockwork.await.induct k look limit with
  | case1 now s a found => rwa [await, found]
  | case2 now s none before t ih =>
    rw [await, none]
    simp only [before, if_true]
    exact ih (keeps t s h)
  | case3 now s none late =>
    rw [await, none]
    simp only [late, if_false]
    exact h

namespace Stage

variable {job : Job} {s₀ s : Stage}

theorem Doing.await {α : Type} (h : Doing job s₀ s) (look : Stage → Option α) (limit now : Nat) :
    Doing job s₀ (clockwork.await look limit now s).2.2 :=
  clockwork.await_keeps (P := Doing job s₀) (fun t _ hs => hs.settle t) look limit now s h

/-- What a read has taken when it ends, in time or not. -/
theorem read_took (s : Stage) (now : Nat) (span : Option Duration) (patience : Nat) :
    ∃ taken gone, Moves s (s.read now span patience).2.2 taken [] gone [] ∧
      Took (s.read now span patience).1 taken := by
  have hbegun : Doing .read s (s.beginRead now span) :=
    ⟨[], [], [], [], .inward rfl rfl rfl, .reading rfl⟩
  obtain ⟨taken, put, gone, got, hmoves, haccount⟩ :=
    (hbegun.attempt now).await readResult? patience now
  have hresult : readResult? (s.read now span patience).2.2 = (s.read now span patience).1 :=
    clockwork.await_answer rfl
  change Moves s (s.read now span patience).2.2 taken put gone got at hmoves
  change Account .read taken put got (s.read now span patience).2.2.operation at haccount
  rw [readResult?] at hresult
  generalize (s.read now span patience).2.2.operation = operation at haccount hresult
  cases haccount with
  | reading h => exact ⟨taken, gone, hmoves, hresult ▸ .dropped (FrameReader.first?_of_none h)⟩
  | readDone h => exact ⟨taken, gone, hmoves, hresult ▸ h⟩

/-- What a write has put on its stream when it ends, in time or not. -/
theorem write_put (s : Stage) (now : Nat) (span : Option Duration) (payload : Bytes)
    (patience : Nat) :
    ∃ put gone, Moves s (s.write now span payload patience).2.2 [] put gone [] ∧
      Put payload (s.write now span payload patience).1 put := by
  have hbegun : Doing (.write payload) s (s.beginWrite now span payload) :=
    ⟨[], [], [], [], .inward rfl rfl rfl, .writing rfl (FrameReader.framed_ne_nil payload)⟩
  obtain ⟨taken, put, gone, got, hmoves, haccount⟩ :=
    (hbegun.attempt now).await writeResult? patience now
  have hresult : writeResult? (s.write now span payload patience).2.2 =
      (s.write now span payload patience).1 := clockwork.await_answer rfl
  change Moves s (s.write now span payload patience).2.2 taken put gone got at hmoves
  change Account (.write payload) taken put got
    (s.write now span payload patience).2.2.operation at haccount
  rw [writeResult?] at hresult
  generalize (s.write now span payload patience).2.2.operation = operation at haccount hresult
  cases haccount with
  | writing front more => exact ⟨put, gone, hmoves, hresult ▸ .dropped front more⟩
  | writeDone h => exact ⟨put, gone, hmoves, hresult ▸ h⟩

end Stage

end RpcClient
