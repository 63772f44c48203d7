/-
The loop of a connection on its link. A flush writes one frame after another, and each one
that is written whole leaves fewer (`work`), so it is through before its tries are used up:
more of them change nothing (`flush_more`), and then there is nothing left to be written
or no space for it (`flush_rests`).

A poll is a run of events and nothing else: what it writes, all that the link has brought,
what it writes after that, and a look whether it is to stop (`poll_run`). It leaves nothing
that the connection could still do (`poll_rests`).
-/
import RpcClient.Proofs.Connection.Greeting

namespace RpcClient.Connection

variable {c : Connection} {p : Pipe} {tries : Nat}

/-! ## What there is to write -/

/-- The next call is taken from the queue, or nothing changes. -/
theorem load_cases (c : Connection) :
    c.load = c ∨ ∃ inp out frame frames, c.activity = .serving inp out ∧ out.isDone = true ∧
      c.calls.queue = some (frame :: frames) ∧
      c.load = { c with
        calls := { c.calls with queue := some frames }
        activity := .serving inp ⟨frameBytes frame⟩ } := by
  unfold load
  split
  · next inp out activity =>
    split
    · next done =>
      split
      · next frame calls hnext =>
        obtain ⟨frames, hqueue, rfl⟩ := CallTable.nextFrame?_eq_some hnext
        exact .inr ⟨inp, out, frame, frames, activity, done, hqueue, rfl⟩
      · exact .inl rfl
    · exact .inl rfl
  · exact .inl rfl

theorem load_load (c : Connection) : c.load.load = c.load := by
  obtain h | ⟨inp, out, frame, frames, -, -, -, h⟩ := c.load_cases
  · rw [h, h]
  · have hbusy : (frameBytes frame).isEmpty = false := by
      simpa [frameBytes] using FrameReader.framed_ne_nil _
    rw [h]
    simp [load, FrameWriter.isDone, hbusy]

theorem isReading_load (c : Connection) : c.load.isReading = c.isReading := by
  obtain h | ⟨inp, out, frame, frames, activity, -, -, h⟩ := c.load_cases
  · rw [h]
  · rw [h]
    simp only [isReading, activity]

/-- How many frames a connection has still to write, with the one that it is writing. -/
def work (c : Connection) : Nat :=
  match c.activity with
  | .greeting _ => 1
  | .serving _ out => (if out.isDone then 0 else 1) + (c.calls.queue.getD []).length
  | _ => 0

theorem work_lt_backlog (c : Connection) : c.work < c.backlog := by
  unfold work backlog
  split
  · omega
  · split <;> omega
  · omega

theorem work_load (c : Connection) : c.load.work ≤ c.work := by
  obtain h | ⟨inp, out, frame, frames, activity, done, queue, h⟩ := c.load_cases
  · exact Nat.le_of_eq (by rw [h])
  · rw [h]
    simp only [work, activity, done, queue, if_true, Option.getD_some, List.length_cons]
    split <;> omega

/-- Without any there is no frame to be loaded. -/
theorem load_of_work (none : c.work = 0) : c.load = c ∧ c.offer = [] := by
  unfold work at none
  unfold load offer
  split at none
  · cases none
  · next inp out activity =>
    have hdone : out.isDone = true := by
      by_contra busy
      rw [if_neg busy] at none
      omega
    have hqueue : (c.calls.queue.getD []).length = 0 := by omega
    have hnext : c.calls.nextFrame? = Option.none := by
      unfold CallTable.nextFrame?
      split
      · next frame frames queue => simp [queue] at hqueue
      · rfl
    simp only [activity, hdone, if_true, hnext, true_and]
    simpa [FrameWriter.isDone] using hdone
  · split <;> simp_all

/-- One that is written whole leaves fewer. -/
theorem work_wrote (some : c.offer ≠ []) : (c.wrote c.offer.length).work < c.work := by
  cases activity : c.activity with
  | greeting out => simp [work, wrote, offer, activity]
  | serving inp out =>
    simp only [offer, activity] at some
    simp [work, wrote, offer, activity, FrameWriter.isDone, some]
  | dialling | awaiting | stopped => simp [offer, activity] at some

/-! ## A flush -/

/-- One try of a flush. -/
theorem flush_succ (tries : Nat) (c : Connection) (p : Pipe) :
    c.flush (tries + 1) p =
      if c.load.offer = [] then (c.load, p)
      else if p.closed then (c.load.broken (.io .brokenPipe), p)
      else if c.load.offer.length ≤ p.space then
        (c.load.wrote c.load.offer.length).flush tries
          { p with buffer := p.buffer ++ c.load.offer }
      else
        (c.load.wrote p.space, { p with buffer := p.buffer ++ c.load.offer.take p.space }) := by
  rw [flush]
  by_cases hnone : c.load.offer = []
  · simp [hnone]
  · cases hclosed : p.closed with
    | true => simp [hnone, Pipe.write_closed hclosed]
    | false =>
      by_cases hfits : c.load.offer.length ≤ p.space
      · simp [hnone, hclosed, Pipe.write_open hclosed, hfits, List.take_of_length_le hfits]
      · simp [hnone, hclosed, Pipe.write_open hclosed, hfits]

/-- Tries beyond what there is to write change nothing. -/
theorem flush_more (enough : c.work ≤ tries) (more : Nat) (p : Pipe) :
    c.flush (tries + more) p = c.flush tries p := by
  induction tries generalizing c p with
  | zero =>
    cases more with
    | zero => rfl
    | succ more =>
      obtain ⟨hload, hoffer⟩ := load_of_work (Nat.le_zero.1 enough)
      rw [Nat.zero_add, flush_succ, hload, if_pos hoffer]
      rfl
  | succ tries ih =>
    rw [Nat.add_right_comm, flush_succ, flush_succ]
    by_cases hnone : c.load.offer = []
    · rw [if_pos hnone, if_pos hnone]
    · have hfewer := work_wrote hnone
      have hload := c.work_load
      rw [if_neg hnone, if_neg hnone, ih (by omega)]

/-- The tries that a poll gives cut nothing off. -/
theorem flush_backlog (c : Connection) (more : Nat) (p : Pipe) :
    c.flush (c.backlog + more) p = c.flush c.backlog p :=
  flush_more (Nat.le_of_lt c.work_lt_backlog) more p

/-- A connection is at rest for a pipe: it has nothing to write, or there is no space. -/
def Rests (c : Connection) (p : Pipe) : Prop := c.load.offer = [] ∨ p.writable = false

theorem broken_rests (some : c.offer ≠ []) (error : LinkError) : (c.broken error).Rests p := by
  cases activity : c.activity with
  | greeting | serving => simp [Rests, broken, fail, stop, load, offer, activity]
  | dialling | awaiting | stopped => simp [offer, activity] at some

/-- After a flush there is nothing left to be written, or no space for it. -/
theorem flush_rests (enough : c.work < tries) (p : Pipe) :
    (c.flush tries p).1.Rests (c.flush tries p).2 := by
  induction tries generalizing c p with
  | zero => exact absurd enough (Nat.not_lt_zero _)
  | succ tries ih =>
    rw [flush_succ]
    split
    · next hnone =>
      exact .inl (by rwa [load_load])
    · next hsome =>
      have hfewer := work_wrote hsome
      have hload := c.work_load
      split
      · exact broken_rests hsome _
      · next hopen =>
        split
        · exact ih (by omega) _
        · next hlong =>
          refine .inr ?_
          simp only [Pipe.writable, Pipe.space, List.length_append, List.length_take,
            Bool.or_eq_false_iff, decide_eq_false_iff_not] at hlong ⊢
          exact ⟨by omega, by simpa using hopen⟩

/-! ## Polls as runs of events -/

/-- Whether an event is a part of writing. -/
def Event.writes : Event → Bool
  | .load | .wrote _ | .writeFailed _ => true
  | _ => false

theorem transcript_append (c : Connection) (events more : List Event) :
    c.transcript (events ++ more) = c.transcript events ++ (c.run events).transcript more := by
  induction events generalizing c with
  | nil => rfl
  | cons e events ih =>
    rw [List.cons_append, transcript, transcript, ih, List.append_assoc]
    rfl

/-- A flush is a run of writing, and what that writes goes into the pipe. -/
theorem flush_run (tries : Nat) (c : Connection) (p : Pipe) :
    ∃ events, (∀ e ∈ events, e.writes = true) ∧
      c.flush tries p = (c.run events, { p with buffer := p.buffer ++ c.transcript events }) := by
  induction tries generalizing c p with
  | zero => exact ⟨[], by simp, by simp [flush, run, transcript]⟩
  | succ tries ih =>
    rw [flush_succ]
    split
    · exact ⟨[.load], by simp [Event.writes], by simp [run, transcript, written, handle]⟩
    · next hsome =>
      have hoffer : c.load.offer.isEmpty = false := by simpa using hsome
      split
      · exact ⟨[.load, .writeFailed (.io .brokenPipe)], by simp [Event.writes],
          by simp [run, transcript, written, handle, hoffer]⟩
      · split
        · obtain ⟨events, hwrites, hflush⟩ := ih (c.load.wrote c.load.offer.length)
            { p with buffer := p.buffer ++ c.load.offer }
          refine ⟨.load :: .wrote c.load.offer.length :: events, ?_, ?_⟩
          · simpa [Event.writes] using hwrites
          · rw [hflush]
            simp [run, transcript, written, handle]
        · exact ⟨[.load, .wrote p.space], by simp [Event.writes],
            by simp [run, transcript, written, handle]⟩

/-- What a pipe brings: the bytes that are in it, and its end. -/
def arrivals (p : Pipe) : List Event :=
  .arrived p.buffer :: if p.closed then [.readFailed .closed] else []

/-- What a connection does not read of a pipe stays in it. -/
theorem drain_run (c : Connection) (p : Pipe) :
    c.drain p = (c.run (arrivals p), { p with buffer := (c.arrived p.buffer).2 }) := by
  refine Prod.ext (c.drain_eq p) ?_
  unfold drain
  by_cases hreading : c.isReading = true
  · rw [if_pos hreading]
  · rw [if_neg hreading, arrived_deaf (c.reader?_of_deaf (by simpa using hreading))]

theorem transcript_arrivals (c : Connection) (p : Pipe) : c.transcript (arrivals p) = [] := by
  unfold arrivals
  split <;> rfl

/-- What a poll begins with: one that reads does nothing, another writes. -/
theorem begin_run (c : Connection) (up : Pipe) :
    ∃ events, (∀ e ∈ events, e.writes = true) ∧ (c.isReading = true → events = []) ∧
      (if c.isReading then (c, up) else c.flush c.backlog up) =
        (c.run events, { up with buffer := up.buffer ++ c.transcript events }) := by
  by_cases hreading : c.isReading = true
  · exact ⟨[], by simp, fun _ => rfl, by simp [hreading, run, transcript]⟩
  · obtain ⟨events, hwrites, hflush⟩ := flush_run c.backlog c up
    exact ⟨events, hwrites, fun h => absurd h hreading, by rw [if_neg hreading, hflush]⟩

/-- **A poll is a run of events.** All that a connection does on its link is to write, to take
what the link has brought, with its end, and to write again, and then to look whether it is to
stop; while it reads it takes what has come in first. What these events write goes up behind
what is there, what is not read stays, and a connection that has stopped hangs up. -/
theorem poll_run (c : Connection) (l : Link) :
    ∃ before after, (∀ e ∈ before ++ after, e.writes = true) ∧
      (c.isReading = true → before = []) ∧
      let events := before ++ arrivals l.down ++ after ++ [.noticeStop]
      let link : Link :=
        { up := { l.up with buffer := l.up.buffer ++ c.transcript events }
          down := { l.down with buffer := ((c.run before).arrived l.down.buffer).2 } }
      c.poll l = (c.run events, if (c.run events).isRunning then link else link.hangUp) := by
  obtain ⟨up, down⟩ := l
  obtain ⟨before, hbefore, hreading, hfirst⟩ := c.begin_run up
  obtain ⟨after, hafter, hsecond⟩ := flush_run ((c.run before).run (arrivals down)).backlog
    ((c.run before).run (arrivals down)) { up with buffer := up.buffer ++ c.transcript before }
  refine ⟨before, after, fun e he => (List.mem_append.1 he).elim (hbefore e) (hafter e),
    hreading, ?_⟩
  have htranscript : c.transcript (before ++ arrivals down ++ after ++ [.noticeStop]) =
      c.transcript before ++ ((c.run before).run (arrivals down)).transcript after := by
    simp only [transcript_append, transcript_arrivals, run_append, transcript, written,
      List.append_nil]
  have hrun : c.run (before ++ arrivals down ++ after ++ [.noticeStop]) =
      (((c.run before).run (arrivals down)).run after).noticeStop := by
    simp only [run_append]
    rfl
  dsimp only
  rw [hrun, htranscript, ← List.append_assoc]
  simp only [poll, hfirst, drain_run, hsecond]

theorem Reachable.poll {remote : Address} {settings : ConnectionSettings}
    (h : Reachable remote settings c) (l : Link) : Reachable remote settings (c.poll l).1 := by
  obtain ⟨before, after, -, -, hpoll⟩ := c.poll_run l
  rw [hpoll]
  exact h.run _

/-! ## After a poll -/

/-- A connection that has its greeting behind it: it reads, or it has stopped. -/
def Greeted (c : Connection) : Prop := c.isReading = true ∨ c.activity = .stopped

theorem Greeted.withReader (h : c.Greeted) (inp : FrameReader) : (c.withReader inp).Greeted := by
  cases activity : c.activity <;>
    simp_all [Greeted, isReading, Connection.withReader]

theorem Greeted.broken (h : c.Greeted) (error : LinkError) : (c.broken error).Greeted := by
  unfold Connection.broken
  split
  · exact h
  · exact h
  · exact .inr rfl

theorem Greeted.receive (h : c.Greeted) (payload : Bytes) : (c.receive payload).Greeted := by
  unfold Connection.receive
  split
  · exact h.broken _
  · split
    · unfold identify
      split
      · split
        · exact .inl rfl
        · exact .inr rfl
      · exact .inr rfl
      · exact .inr rfl
    · unfold route
      split
      · exact h
      · split
        · exact .inr rfl
        · exact h
      · exact h
    · exact h

theorem Greeted.arrived (h : c.Greeted) (bytes : Bytes) : (c.arrived bytes).1.Greeted := by
  induction c, bytes using arrived.induct with
  | case1 c bytes hreader => rwa [arrived_deaf hreader]
  | case2 c bytes inp hreader inp' rest hread =>
    rw [arrived_part hreader hread]
    exact h.withReader inp'
  | case3 c bytes inp hreader inp' payload rest hread _ ih =>
    rw [arrived_payload hreader hread]
    exact ih ((h.withReader inp').receive payload)
  | case4 c bytes inp hreader inp' fault rest hread =>
    rw [arrived_fault hreader hread]
    exact h.broken _

theorem Greeted.drain (h : c.Greeted) (p : Pipe) : (c.drain p).1.Greeted := by
  unfold Connection.drain
  split
  · dsimp only
    split
    · exact (h.arrived p.buffer).broken _
    · exact h.arrived p.buffer
  · exact h

/-- Who goes on reading has read all that the pipe holds, and it has not ended. -/
theorem drain_reading (reading : (c.drain p).1.isReading = true) :
    (c.drain p).2.readable = false := by
  unfold drain at reading ⊢
  split at reading
  · next hreading =>
    rw [if_pos hreading]
    dsimp only at reading ⊢
    split at reading
    · next hends =>
      simp only [Bool.and_eq_true] at hends
      obtain ⟨inp, hinp⟩ := reader?_of_reading _ hends.1
      simp [isReading, stopped_of_broken hinp] at reading
    · next hends =>
      obtain ⟨inp, hinp⟩ := reader?_of_reading _ reading
      have hopen : p.closed = false := by simpa [reading] using hends
      simp [Pipe.readable, c.arrived_rest p.buffer hinp, hopen]
  · next hdeaf => exact absurd reading hdeaf

/-- Writing does not make a connection read that is at rest. -/
theorem flush_deaf (deaf : c.isReading = false) (rests : c.Rests p) (tries : Nat) :
    (c.flush tries p).1.isReading = false := by
  cases tries with
  | zero => exact deaf
  | succ tries =>
    rw [flush_succ]
    split
    · rwa [isReading_load]
    · next hsome =>
      obtain ⟨hfull, hopen⟩ : p.space = 0 ∧ p.closed = false := by
        simpa [Pipe.writable] using rests.resolve_left hsome
      have hlong : ¬ c.load.offer.length ≤ p.space := by
        simpa [hfull] using hsome
      rw [if_neg (by simp [hopen]), if_neg hlong, hfull]
      rw [← isReading_load] at deaf
      cases activity : c.load.activity with
      | greeting out =>
        simp only [offer, activity] at hsome
        simp [wrote, isReading, activity, hsome]
      | dialling | stopped => simp [wrote, isReading, activity]
      | awaiting | serving => simp [isReading, activity] at deaf

/-- Who does not read before or after the pipe is drained is at rest then. -/
theorem drain_rests {up : Pipe} (rests : c.isReading = false → c.Rests up)
    (deaf : (c.drain p).1.isReading = false) : (c.drain p).1.Rests up := by
  cases hreading : c.isReading with
  | true =>
    have hstopped : (c.drain p).1.activity = .stopped :=
      (Greeted.drain (.inl hreading) p).resolve_left (by simp [deaf])
    exact .inl (by simp [load, offer, hstopped])
  | false =>
    have hsame : c.drain p = (c, p) := by simp [drain, hreading]
    rw [hsame]
    exact rests hreading

/-- Who reads after a pipe is drained and more is written has read all of it. -/
theorem flush_reading {up : Pipe} (rests : c.isReading = false → c.Rests up) (tries : Nat)
    (reading : ((c.drain p).1.flush tries up).1.isReading = true) :
    (c.drain p).2.readable = false := by
  cases hdrained : (c.drain p).1.isReading with
  | true => exact drain_reading hdrained
  | false =>
    rw [flush_deaf hdrained (drain_rests rests hdrained)] at reading
    cases reading

theorem canMove_of_stopped (stopped : c.activity = .stopped) (told : c.stopping = false)
    (l : Link) : c.canMove l = false := by
  simp [canMove, told, load, offer, isReading, stopped]

theorem Rests.canMove {up down : Pipe} (rests : c.Rests up)
    (read : c.isReading = true → down.readable = false) (told : c.stopping = false) :
    c.canMove { up, down } = false := by
  have hup : (!c.load.offer.isEmpty && up.writable) = false := by
    rcases rests with hnone | hfull
    · simp [hnone]
    · simp [hfull]
  have hdown : (c.isReading && down.readable) = false := by
    cases hreading : c.isReading with
    | true => rw [read hreading, Bool.and_false]
    | false => rfl
  simp only [Connection.canMove, told, hup, hdown, Bool.or_false]

/-- **A poll does all that there is to do.** After it the connection can move nothing on its
link: what has come in is read, what is to go out is written as far as there is space, and it
has looked whether it is to stop. -/
theorem poll_rests (c : Connection) (l : Link) : (c.poll l).1.canMove (c.poll l).2 = false := by
  unfold poll
  generalize hfirst : (if c.isReading then (c, l.up) else c.flush c.backlog l.up) = first
  obtain ⟨c₁, up⟩ := first
  have hrests : c₁.isReading = false → c₁.Rests up := by
    intro hdeaf
    split at hfirst
    · next hreading =>
      cases hfirst
      rw [hreading] at hdeaf
      cases hdeaf
    · have hflush := flush_rests c.work_lt_backlog l.up
      rwa [hfirst] at hflush
  have hup := flush_rests (c₁.drain l.down).1.work_lt_backlog up
  have hdown := flush_reading (p := l.down) hrests (c₁.drain l.down).1.backlog
  dsimp only
  generalize (c₁.drain l.down).1.flush (c₁.drain l.down).1.backlog up = last at hup hdown
  obtain ⟨c₂, up⟩ := last
  unfold noticeStop
  split
  · exact canMove_of_stopped rfl rfl _
  · next hnot =>
    have htold : c₂.stopping = false := by simpa using hnot
    split
    · exact hup.canMove hdown htold
    · next hstopped => exact canMove_of_stopped (by simpa [isRunning] using hstopped) htold _

end RpcClient.Connection
