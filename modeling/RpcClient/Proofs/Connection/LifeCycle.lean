/-
The life of a connection. `Move` takes apart what an event can do: bytes move,
calls come and go, the other side is identified, the connection fails, stops
when it was told to, or is given up. Every move keeps `Sound`, which ties the
handshake state to the table of calls, and goes on from where it was (`Later`):
a handshake that has failed stays so, and so does the first error.
-/
import RpcClient.Connection.Event
import RpcClient.Proofs.Call.Outcome

namespace RpcClient

/-! ## The handshake -/

/-- The ways in which a handshake goes on. -/
inductive Handshake.Moves : Handshake → Handshake → Prop
  | identified : Moves .pending .identified
  | refused : Moves .pending .failed
  | broken : Moves .identified .failed

theorem Handshake.Moves.trans {a b d : Handshake} (h : a.Moves b) (k : b.Moves d) : a.Moves d := by
  cases h with
  | identified =>
    cases k with
    | broken => exact .refused
  | refused => cases k
  | broken => cases k

/-- From wherever it stands, a handshake can fail. -/
theorem Handshake.failed_moves (a : Handshake) : Handshake.failed = a ∨ a.Moves .failed := by
  cases a with
  | pending => exact .inr .refused
  | identified => exact .inr .broken
  | failed => exact .inl rfl

/-! ## What stays of the table of calls -/

namespace CallTable

theorem expect_closed (t : CallTable) (now : Nat) (request : Request Bytes) :
    (t.expect now request).1.closed = t.closed := by
  rcases t.expect_cases now request with ⟨_, _, he⟩ | ⟨_, _, he⟩ | ⟨_, _, _, _, he⟩ |
    ⟨_, _, _, _, _, he⟩ <;> rw [he] <;> rfl

theorem complete_closed (t : CallTable) (id : UInt32) (outcome : PendingCall → Outcome Bytes) :
    (t.complete id outcome).1.closed = t.closed := by
  unfold complete
  split <;> rfl

theorem expireDue_closed (t : CallTable) (now : Nat) : (t.expireDue now).closed = t.closed := by
  unfold expireDue
  generalize t.timers.filter (·.due ≤ now) = due
  induction due generalizing t with
  | nil => rfl
  | cons timer due ih => exact (ih _).trans (t.complete_closed timer.id _)

/-- The first cause is the one that stays. -/
theorem failAll_closed (t : CallTable) (cause : Error) :
    (t.failAll cause).1.closed = some (t.closed.getD cause) := rfl

/-- The same queue and as many tickets given out, of a table that is not opened
again. -/
structure SameQueue (t t' : CallTable) : Prop where
  queue : t'.queue = t.queue
  issued : t'.issued = t.issued
  closed : t.isClosed = true → t'.isClosed = true

theorem SameQueue.refl (t : CallTable) : SameQueue t t := ⟨rfl, rfl, fun h => h⟩

theorem SameQueue.trans {a b d : CallTable} (h : SameQueue a b) (k : SameQueue b d) :
    SameQueue a d :=
  ⟨k.queue.trans h.queue, k.issued.trans h.issued, fun ha => k.closed (h.closed ha)⟩

theorem complete_same (t : CallTable) (id : UInt32) (outcome : PendingCall → Outcome Bytes) :
    SameQueue t (t.complete id outcome).1 := by
  unfold complete
  split
  · exact .refl t
  · exact ⟨rfl, rfl, fun h => h⟩

theorem expireDue_same (t : CallTable) (now : Nat) : SameQueue t (t.expireDue now) := by
  unfold expireDue
  generalize t.timers.filter (·.due ≤ now) = due
  induction due generalizing t with
  | nil => exact .refl t
  | cons timer due ih => exact (t.complete_same timer.id _).trans (ih _)

theorem failAll_same (t : CallTable) (cause : Error) : SameQueue t (t.failAll cause).1 :=
  ⟨rfl, rfl, fun _ => rfl⟩

theorem nextFrame?_eq_some {t t' : CallTable} {frame : Frame}
    (h : t.nextFrame? = some (frame, t')) :
    ∃ frames, t.queue = some (frame :: frames) ∧ t' = { t with queue := some frames } := by
  unfold nextFrame? at h
  split at h
  · next frames hqueue =>
    simp only [Option.some.injEq, Prod.mk.injEq] at h
    obtain ⟨rfl, rfl⟩ := h
    exact ⟨_, hqueue, rfl⟩
  · cases h

end CallTable

namespace Connection

/-! ## One move -/

/-- What an event may do to a connection, taken apart. -/
inductive Move (c : Connection) : Connection → Prop
  /-- Something was written or read, or dialling went on. -/
  | busy (activity : Activity) : Move c { c with activity }
  | calls {calls : CallTable} (steps : CallTable.Steps c.calls calls)
      (closed : calls.closed = c.calls.closed) : Move c { c with calls }
  | identify (identity : Identity) (version : identity.version = protocolVersion)
      (activity : Activity) :
    Move c { c with
      identity := some identity
      handshake := if c.handshake = .pending then .identified else c.handshake
      activity }
  | fail (error : Error) : Move c (c.fail error)
  | stop (told : c.stopping = true) : Move c (c.stop .linkClosed)
  | clean : Move c c.clean

/-- Any number of moves. -/
abbrev Moves : Connection → Connection → Prop := Relation.ReflTransGen Move

theorem broken_moves (c : Connection) (error : LinkError) : Moves c (c.broken error) := by
  unfold broken
  split
  · exact .refl
  · exact .refl
  · exact .single (.fail (.link error))

theorem withReader_moves (c : Connection) (inp : FrameReader) : Moves c (c.withReader inp) := by
  unfold withReader
  split
  · exact .single (.busy _)
  · exact .single (.busy _)
  · exact .refl

theorem identify_moves (c : Connection) (frame : Frame) : Moves c (c.identify frame) := by
  unfold identify
  split
  · next identity =>
    split
    · next version => exact .single (.identify identity version _)
    · exact .single (.fail _)
  · exact .single (.fail _)
  · exact .single (.fail _)

theorem route_moves (c : Connection) (frame : Frame) : Moves c (c.route frame) := by
  unfold route
  split
  · next reply =>
    exact .single (.calls (.single (.complete reply.id _)) (c.calls.complete_closed _ _))
  · next report =>
    split
    · exact .single (.fail _)
    · exact .single (.calls (.single (.complete report.id _)) (c.calls.complete_closed _ _))
  · exact .refl

theorem receive_moves (c : Connection) (payload : Bytes) : Moves c (c.receive payload) := by
  unfold receive
  split
  · exact c.broken_moves _
  · next frame _ =>
    split
    · exact c.identify_moves frame
    · exact c.route_moves frame
    · exact .refl

/-! ## Bytes that come in -/

section Arrived

variable {c : Connection} {bytes rest : Bytes} {inp inp' : FrameReader}

theorem arrived_deaf (h : c.reader? = none) (bytes : Bytes) : c.arrived bytes = (c, bytes) := by
  rw [arrived]
  split
  · rfl
  · next other hother => cases h.symm.trans hother

/-- The bytes end before a frame does. -/
theorem arrived_part (h : c.reader? = some inp) (hread : inp.read bytes = (inp', none, rest)) :
    c.arrived bytes = (c.withReader inp', rest) := by
  rw [arrived]
  split
  · next hnone => cases h.symm.trans hnone
  · next other hother =>
    obtain rfl := Option.some.inj (h.symm.trans hother)
    split
    · next heq => cases hread.symm.trans heq; rfl
    · next heq => cases hread.symm.trans heq
    · next heq => cases hread.symm.trans heq

/-- A whole frame is received before the bytes behind it are read. -/
theorem arrived_payload (h : c.reader? = some inp) {payload : Bytes}
    (hread : inp.read bytes = (inp', some (.ok payload), rest)) :
    c.arrived bytes = ((c.withReader inp').receive payload).arrived rest := by
  rw [arrived]
  split
  · next hnone => cases h.symm.trans hnone
  · next other hother =>
    obtain rfl := Option.some.inj (h.symm.trans hother)
    split
    · next heq => cases hread.symm.trans heq
    · next heq => cases hread.symm.trans heq; rfl
    · next heq => cases hread.symm.trans heq

theorem arrived_fault (h : c.reader? = some inp) {fault : FrameFault}
    (hread : inp.read bytes = (inp', some (.error fault), rest)) :
    c.arrived bytes = (c.broken (.invalidFrame fault), rest) := by
  rw [arrived]
  split
  · next hnone => cases h.symm.trans hnone
  · next other hother =>
    obtain rfl := Option.some.inj (h.symm.trans hother)
    split
    · next heq => cases hread.symm.trans heq
    · next heq => cases hread.symm.trans heq
    · next heq => cases hread.symm.trans heq; rfl

end Arrived

theorem arrived_moves (c : Connection) (bytes : Bytes) : Moves c (c.arrived bytes).1 := by
  -- Along the frames that end in the bytes; the last of them may stop the connection.
  induction c, bytes using arrived.induct with
  | case1 c bytes hreader =>
    rw [arrived_deaf hreader]
  | case2 c bytes inp hreader inp' rest hread =>
    rw [arrived_part hreader hread]
    exact c.withReader_moves inp'
  | case3 c bytes inp hreader inp' payload rest hread _ ih =>
    rw [arrived_payload hreader hread]
    exact (c.withReader_moves inp').trans ((receive_moves _ payload).trans ih)
  | case4 c bytes inp hreader inp' fault rest hread =>
    rw [arrived_fault hreader hread]
    exact c.broken_moves _

theorem load_moves (c : Connection) : Moves c c.load := by
  unfold load
  split
  · next inp out _ =>
    split
    · split
      · next frame calls hnext =>
        obtain ⟨frames, _, rfl⟩ := CallTable.nextFrame?_eq_some hnext
        have htaken : Move c { c with calls := { c.calls with queue := some frames } } :=
          .calls (.single (.queue _)) rfl
        exact .tail (.single htaken) (.busy _)
      · exact .refl
    · exact .refl
  · exact .refl

/-- Every event is a number of moves. -/
theorem handle_moves (c : Connection) (e : Event) : Moves c (c.handle e) := by
  cases e with
  | dialled =>
    simp only [handle, dialled]
    split
    · exact .single (.busy _)
    · exact .refl
  | dialFailed error =>
    simp only [handle, dialFailed]
    split
    · exact .single (.fail _)
    · exact .refl
  | load => exact c.load_moves
  | wrote count =>
    simp only [handle, wrote]
    split
    · exact .single (.busy _)
    · exact .single (.busy _)
    · exact .refl
  | writeFailed error =>
    simp only [handle]
    split
    · exact .refl
    · exact c.broken_moves error
  | arrived bytes => exact c.arrived_moves bytes
  | readFailed error =>
    simp only [handle]
    split
    · exact c.broken_moves error
    · exact .refl
  | expect now request =>
    exact .single (.calls (.single (.expect now request)) (c.calls.expect_closed now request))
  | expire now =>
    exact .single (.calls (.expireDue c.calls now) (c.calls.expireDue_closed now))
  | clean => exact .single .clean
  | noticeStop =>
    simp only [handle, noticeStop]
    split
    · next told => exact .single (.stop told)
    · exact .refl

theorem Moves.usualTimeout {c c' : Connection} (m : Moves c c') :
    c'.calls.usualTimeout = c.calls.usualTimeout := by
  induction m with
  | refl => rfl
  | tail _ last ih =>
    refine Eq.trans ?_ ih
    cases last with
    | busy activity => rfl
    | calls steps _ => exact steps.usualTimeout
    | identify identity version activity => rfl
    | fail error => rfl
    | stop told => rfl
    | clean =>
      unfold Connection.clean
      split <;> rfl

theorem Moves.announcement {c c' : Connection} (m : Moves c c') :
    c'.announcement = c.announcement := by
  induction m with
  | refl => rfl
  | tail _ last ih =>
    refine Eq.trans ?_ ih
    cases last with
    | clean =>
      unfold Connection.clean
      split <;> rfl
    | _ => rfl

theorem run_append (c : Connection) (events more : List Event) :
    c.run (events ++ more) = (c.run events).run more := List.foldl_append

theorem run_moves (c : Connection) (events : List Event) : Moves c (c.run events) := by
  induction events generalizing c with
  | nil => exact .refl
  | cons e events ih => exact (c.handle_moves e).trans (ih (c.handle e))

/-! ## What holds at any time -/

/-- What holds of a connection between two events. -/
structure Sound (c : Connection) : Prop where
  calls : c.calls.Coherent
  /-- The table is closed just when the connection has failed. -/
  closed : c.calls.isClosed = true ↔ c.handshake = .failed
  cleaned : c.cleaned = true → c.handshake = .failed
  identity : c.handshake = .identified → ∃ identity, c.identity = some identity
  version : ∀ identity, c.identity = some identity → identity.version = protocolVersion
  lastError : ∀ error, c.lastError = some error → c.handshake = .failed

theorem Sound.dial (remote : Address) (settings : ConnectionSettings) :
    Sound (.dial remote settings) := by
  constructor
  · exact .start settings.requestTimeout
  all_goals simp [Connection.dial, CallTable.isClosed]

theorem Sound.stop {c : Connection} (h : Sound c) (cause : Error) : Sound (c.stop cause) where
  calls := (h.calls.queue none).step (.failAll cause)
  closed := ⟨fun _ => rfl, fun _ => rfl⟩
  cleaned _ := rfl
  identity := by simp [Connection.stop]
  version := h.version
  lastError _ _ := rfl

theorem Sound.fail {c : Connection} (h : Sound c) (error : Error) : Sound (c.fail error) where
  calls := (h.stop error).calls
  closed := (h.stop error).closed
  cleaned := (h.stop error).cleaned
  identity := (h.stop error).identity
  version := h.version
  lastError _ _ := rfl

theorem Sound.clean {c : Connection} (h : Sound c) : Sound c.clean := by
  unfold Connection.clean
  split
  · exact h
  · constructor
    · exact h.calls.step (.failAll _)
    · exact ⟨fun _ => rfl, fun _ => rfl⟩
    · exact fun _ => rfl
    · simp
    · exact h.version
    · exact fun _ _ => rfl

/-- Whoever is identified says so, and one who was given up before it was
identified has failed for good. -/
theorem Sound.identify {c : Connection} (h : Sound c) {identity : Identity}
    (version : identity.version = protocolVersion) (activity : Activity) :
    Sound { c with
      identity := some identity
      handshake := if c.handshake = .pending then .identified else c.handshake
      activity } := by
  have hfailed : (if c.handshake = .pending then Handshake.identified else c.handshake) = .failed ↔
      c.handshake = .failed := by
    cases c.handshake <;> simp
  constructor
  · exact h.calls
  · rw [hfailed]
    exact h.closed
  · rw [hfailed]
    exact h.cleaned
  · exact fun _ => ⟨identity, rfl⟩
  · intro other hother
    obtain rfl := Option.some.inj hother
    exact version
  · rw [hfailed]
    exact h.lastError

theorem Sound.move {c c' : Connection} (h : Sound c) (m : Move c c') : Sound c' := by
  cases m with
  | busy activity => exact ⟨h.calls, h.closed, h.cleaned, h.identity, h.version, h.lastError⟩
  | calls steps closed =>
    refine ⟨h.calls.steps steps, ?_, h.cleaned, h.identity, h.version, h.lastError⟩
    simp only [CallTable.isClosed, closed]
    exact h.closed
  | identify identity version activity => exact h.identify version activity
  | fail error => exact h.fail error
  | stop told => exact h.stop .linkClosed
  | clean => exact h.clean

theorem Sound.moves {c c' : Connection} (h : Sound c) (m : Moves c c') : Sound c' := by
  induction m with
  | refl => exact h
  | tail _ last ih => exact ih.move last

theorem Sound.handle {c : Connection} (h : Sound c) (e : Event) : Sound (c.handle e) :=
  h.moves (c.handle_moves e)

theorem Reachable.sound {remote : Address} {settings : ConnectionSettings} {c : Connection}
    (h : Reachable remote settings c) : Sound c := by
  induction h with
  | dial => exact .dial remote settings
  | handle e _ ih => exact ih.handle e

/-! ## What later states keep -/

/-- How a later state of a connection relates to an earlier one. -/
structure Later (c c' : Connection) : Prop where
  remote : c'.remote = c.remote
  direction : c'.direction = c.direction
  handshake : c'.handshake = c.handshake ∨ c.handshake.Moves c'.handshake
  closed : ∀ cause, c.calls.closed = some cause → c'.calls.closed = some cause
  cleaned : c.cleaned = true → c'.cleaned = true
  lastError : ∀ error, c.lastError = some error → c'.lastError = some error

theorem Later.refl (c : Connection) : Later c c :=
  ⟨rfl, rfl, .inl rfl, fun _ h => h, fun h => h, fun _ h => h⟩

theorem Later.trans {a b d : Connection} (h : Later a b) (k : Later b d) : Later a d where
  remote := k.remote.trans h.remote
  direction := k.direction.trans h.direction
  handshake := by
    rcases h.handshake with hab | hab <;> rcases k.handshake with hbd | hbd
    · exact .inl (hbd.trans hab)
    · exact .inr (hab ▸ hbd)
    · exact .inr (hbd ▸ hab)
    · exact .inr (hab.trans hbd)
  closed cause hc := k.closed cause (h.closed cause hc)
  cleaned hc := k.cleaned (h.cleaned hc)
  lastError error he := k.lastError error (h.lastError error he)

theorem Move.later {c c' : Connection} (m : Move c c') : Later c c' := by
  cases m with
  | busy activity => exact ⟨rfl, rfl, .inl rfl, fun _ h => h, fun h => h, fun _ h => h⟩
  | calls steps closed =>
    exact ⟨rfl, rfl, .inl rfl, fun _ h => closed.trans h, fun h => h, fun _ h => h⟩
  | identify identity version activity =>
    refine ⟨rfl, rfl, ?_, fun _ h => h, fun h => h, fun _ h => h⟩
    cases hc : c.handshake with
    | pending => exact .inr .identified
    | identified => exact .inl rfl
    | failed => exact .inl rfl
  | fail error =>
    refine ⟨rfl, rfl, c.handshake.failed_moves, fun cause h => ?_, fun h => h, fun first h => ?_⟩
    · simp [Connection.fail, Connection.stop, CallTable.failAll_closed, CallTable.dropQueue, h]
    · simp [Connection.fail, h]
  | stop told =>
    refine ⟨rfl, rfl, c.handshake.failed_moves, fun cause h => ?_, fun h => h, fun _ h => h⟩
    simp [Connection.stop, CallTable.failAll_closed, CallTable.dropQueue, h]
  | clean =>
    unfold Connection.clean
    split
    · exact .refl c
    · refine ⟨rfl, rfl, c.handshake.failed_moves, fun cause h => ?_, fun _ => rfl, fun _ h => h⟩
      simp [CallTable.failAll_closed, h]

theorem Moves.later {c c' : Connection} (m : Moves c c') : Later c c' := by
  induction m with
  | refl => exact .refl c
  | tail _ last ih => exact ih.trans last.later

theorem handle_later (c : Connection) (e : Event) : Later c (c.handle e) := (c.handle_moves e).later

theorem run_later (c : Connection) (events : List Event) : Later c (c.run events) := by
  induction events generalizing c with
  | nil => exact .refl c
  | cons e events ih => exact (c.handle_later e).trans (ih (c.handle e))

theorem Later.failed {c c' : Connection} (h : Later c c') (hc : c.handshake = .failed) :
    c'.handshake = .failed := by
  rcases h.handshake with heq | hmoves
  · exact heq.trans hc
  · rw [hc] at hmoves
    cases hmoves

/-- Nobody makes a connection usable again. -/
theorem Later.usable {c c' : Connection} (h : Later c c') (hc : c'.isUsable = true) :
    c.isUsable = true := by
  simp only [isUsable, Bool.and_eq_true, Bool.not_eq_true', bne_iff_ne] at hc ⊢
  constructor
  · by_contra hcleaned
    simp [h.cleaned (by simpa using hcleaned)] at hc
  · exact fun hfailed => hc.2 (h.failed hfailed)

/-! ## Giving up -/

theorem clean_clean (c : Connection) : c.clean.clean = c.clean := by
  by_cases hc : c.cleaned = true
  · simp [clean, hc]
  · simp [clean, hc]

theorem clean_unusable (c : Connection) : c.clean.isUsable = false := by
  by_cases hc : c.cleaned = true
  · simp [clean, isUsable, hc]
  · simp [clean, isUsable, hc]

/-! ## The whole life -/

theorem Sound.isUsable_iff {c : Connection} (h : Sound c) :
    c.isUsable = true ↔ c.handshake ≠ .failed := by
  simp only [isUsable, Bool.and_eq_true, Bool.not_eq_true', bne_iff_ne, and_iff_right_iff_imp]
  intro hc
  by_contra hcleaned
  exact hc (h.cleaned (by simpa using hcleaned))

/-- A call on a connection that has failed fails at once, with the cause that
closed the table. -/
theorem Sound.expect_failed {c : Connection} (h : Sound c) (hc : c.handshake = .failed) :
    ∃ cause, ∀ (events : List Event) (now : Nat) (request : Request Bytes),
      (c.run events).calls.expect now request =
        ((c.run events).calls, .failed (.network cause)) := by
  obtain ⟨cause, hcause⟩ := Option.isSome_iff_exists.1 (h.closed.2 hc)
  refine ⟨cause, fun events now request => ?_⟩
  have hlater := (c.run_later events).closed cause hcause
  simp [CallTable.expect, hlater]

/-- **The life of a connection.** After any run of events, in whatever order the
driver of the stream and the owner act, what holds then and goes on to hold:
the handshake only goes on in its three ways and never leaves `failed`; it has
failed just when the table of calls is closed, and then no call waits and each
later one fails at once; one that was given up has failed, so that usable means
not failed, and is never so again; who is identified has said who it is, in
the version of the protocol; and the first error stays, with a failed state. -/
theorem life_cycle {remote : Address} {settings : ConnectionSettings} {c : Connection}
    (h : Reachable remote settings c) :
    (∀ events, (c.run events).handshake = c.handshake ∨
      c.handshake.Moves (c.run events).handshake) ∧
    (c.handshake = .failed → ∀ events, (c.run events).handshake = .failed) ∧
    (c.handshake = .failed ↔ c.calls.isClosed = true) ∧
    (c.handshake = .failed → c.calls.pending = [] ∧ c.calls.timers = [] ∧
      ∃ cause, ∀ (events : List Event) (now : Nat) (request : Request Bytes),
        (c.run events).calls.expect now request =
          ((c.run events).calls, .failed (.network cause))) ∧
    (c.cleaned = true → c.handshake = .failed) ∧
    (c.isUsable = true ↔ c.handshake ≠ .failed) ∧
    (c.isUsable = false → ∀ events, (c.run events).isUsable = false) ∧
    (c.handshake = .identified → ∃ identity, c.identity = some identity) ∧
    (∀ identity, c.identity = some identity → identity.version = protocolVersion) ∧
    (∀ error, c.lastError = some error →
      c.handshake = .failed ∧ ∀ events, (c.run events).lastError = some error) := by
  have sound : Sound c := h.sound
  refine ⟨fun events => (c.run_later events).handshake,
    fun hc events => (c.run_later events).failed hc, sound.closed.symm, fun hc => ?_,
    sound.cleaned, sound.isUsable_iff, fun hc events => ?_, sound.identity, sound.version,
    fun error he => ?_⟩
  · have hpending : c.calls.pending = [] := sound.calls.closed (sound.closed.2 hc)
    have htimers : c.calls.timers = [] := by simpa [hpending] using sound.calls.timers
    exact ⟨hpending, htimers, sound.expect_failed hc⟩
  · cases hu : (c.run events).isUsable with
    | false => rfl
    | true => exact absurd ((c.run_later events).usable hu) (by simp [hc])
  · exact ⟨sound.lastError error he, fun events => (c.run_later events).lastError error he⟩

/-- The other side says who it is after the connection was given up. That is
noted, but whatever comes next, it brings nothing back. -/
theorem unusable_after_late_identity :
    let identity : Identity := { hostPort := "127.0.0.1:4040", processName := "bank" }
    let c := (dial (.v4 127 0 0 1 4040)
      { hostPort := "0.0.0.0:0", processName := "ledger", requestTimeout := .ofMillis 1000 }).run
        [.dialled, .wrote 1000, .clean, .arrived (frameBytes (.initResponse identity))]
    c.identity = some identity ∧ ∀ events, (c.run events).isUsable = false := by
  intro identity c
  have hc : c.identity = some identity ∧ c.isUsable = false := by decide +kernel
  obtain ⟨-, -, -, -, -, -, hkeeps, -⟩ := life_cycle (Reachable.dial.run _ : Reachable _ _ c)
  exact ⟨hc.1, hkeeps hc.2⟩

end Connection

end RpcClient
