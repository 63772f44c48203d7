/-
How the greeting of a connection ends. As long as its owner does not give it up, a
connection is where the events at its stream have brought it (`Opening.At`): it is
still on the way, it has noted who the other side is, or it has failed with the
error that they decide. Every event keeps that (`Opening.At.handle`).
-/
import Mathlib.Data.List.Induction
import RpcClient.Proofs.Connection.Traffic

namespace RpcClient.Connection

variable {c c' : Connection} {e : Event} {o : Opening} {bytes rest : Bytes}

/-! ## Before and after -/

/-- Nothing is decided. -/
structure Undecided (c : Connection) : Prop where
  handshake : c.handshake = .pending
  lastError : c.lastError = none
  identity : c.identity = none

/-- A connection has noted who the other side is. -/
structure Known (c : Connection) (identity : Identity) : Prop where
  identity : c.identity = some identity
  activity : (∃ inp out, c.activity = .serving inp out) ∨ c.activity = .stopped

/-- A connection has broken before that. -/
structure Refused (c : Connection) (error : Error) : Prop where
  activity : c.activity = .stopped
  handshake : c.handshake = .failed
  lastError : c.lastError = some error
  identity : c.identity = none

/-- Where a connection is, by what has happened at its stream. -/
def Opening.At (c : Connection) : Opening → Prop
  | .dialling => c.Undecided ∧ c.activity = .dialling
  | .greeting rest => c.Undecided ∧ c.activity = .greeting ⟨rest⟩ ∧ rest ≠ []
  | .awaiting heard => c.Undecided ∧
    ∃ inp, c.activity = .awaiting inp ∧ FrameReader.start.read heard = (inp, none, [])
  | .settled (.ok identity) => c.Known identity
  | .settled (.error error) => c.Refused error

theorem Undecided.fail (h : c.Undecided) (error : Error) : (c.fail error).Refused error :=
  ⟨rfl, rfl, by simp [Connection.fail, h.lastError], h.identity⟩

/-! ## Who is known stays known -/

variable {identity : Identity}

theorem Known.stop (h : c.Known identity) (cause : Error) : (c.stop cause).Known identity :=
  ⟨h.identity, .inr rfl⟩

theorem Known.fail (h : c.Known identity) (error : Error) : (c.fail error).Known identity :=
  ⟨h.identity, .inr rfl⟩

theorem Known.broken (h : c.Known identity) (error : LinkError) :
    (c.broken error).Known identity := by
  unfold Connection.broken
  split
  · exact h
  · exact h
  · exact h.fail _

theorem Known.withReader (h : c.Known identity) (inp : FrameReader) :
    (c.withReader inp).Known identity := by
  unfold Connection.withReader
  split
  · next inp' hawaiting =>
    rcases h.activity with ⟨_, _, hserving⟩ | hstopped
    · cases hawaiting.symm.trans hserving
    · cases hawaiting.symm.trans hstopped
  · next inp' out _ => exact ⟨h.identity, .inl ⟨inp, out, rfl⟩⟩
  · exact h

theorem Known.receive (h : c.Known identity) (payload : Bytes) :
    (c.receive payload).Known identity := by
  unfold Connection.receive
  split
  · exact h.broken _
  · next frame _ =>
    split
    · next inp hawaiting =>
      rcases h.activity with ⟨_, _, hserving⟩ | hstopped
      · cases hawaiting.symm.trans hserving
      · cases hawaiting.symm.trans hstopped
    · unfold Connection.route
      split
      · exact ⟨h.identity, h.activity⟩
      · split
        · exact h.fail _
        · exact ⟨h.identity, h.activity⟩
      · exact h
    · exact h

theorem Known.arrived (h : c.Known identity) (bytes : Bytes) :
    (c.arrived bytes).1.Known identity := by
  induction c, bytes using arrived.induct with
  | case1 c bytes hreader =>
    rw [arrived_deaf hreader]
    exact h
  | case2 c bytes inp hreader inp' rest hread =>
    rw [arrived_part hreader hread]
    exact h.withReader inp'
  | case3 c bytes inp hreader inp' payload rest hread _ ih =>
    rw [arrived_payload hreader hread]
    exact ih ((h.withReader inp').receive payload)
  | case4 c bytes inp hreader inp' fault rest hread =>
    rw [arrived_fault hreader hread]
    exact h.broken _

theorem Known.handle (h : c.Known identity) (e : Event) : (c.handle e).Known identity := by
  have hbusy : ∀ activity, c.activity = activity → (∀ inp out, activity ≠ .serving inp out) →
      activity = .stopped := by
    intro activity ha hnot
    rcases h.activity with ⟨inp, out, hserving⟩ | hstopped
    · exact absurd (ha.symm.trans hserving) (hnot inp out)
    · exact ha.symm.trans hstopped
  cases e with
  | dialled =>
    simp only [Connection.handle, dialled]
    split
    · next hdialling => cases hbusy _ hdialling fun _ _ h => by cases h
    · exact h
  | dialFailed error =>
    simp only [Connection.handle, dialFailed]
    split
    · exact h.fail _
    · exact h
  | load =>
    simp only [Connection.handle, load]
    split
    · next inp out _ =>
      split
      · split
        · exact ⟨h.identity, .inl ⟨inp, _, rfl⟩⟩
        · exact h
      · exact h
    · exact h
  | wrote count =>
    simp only [Connection.handle, wrote]
    split
    · next out hgreeting => cases hbusy _ hgreeting fun _ _ h => by cases h
    · next inp out _ => exact ⟨h.identity, .inl ⟨inp, _, rfl⟩⟩
    · exact h
  | writeFailed error =>
    simp only [Connection.handle]
    split
    · exact h
    · exact h.broken error
  | arrived bytes => exact h.arrived bytes
  | readFailed error =>
    simp only [Connection.handle]
    split
    · exact h.broken error
    · exact h
  | expect now request => exact ⟨h.identity, h.activity⟩
  | expire now => exact ⟨h.identity, h.activity⟩
  | clean =>
    simp only [Connection.handle, clean]
    split
    · exact h
    · exact ⟨h.identity, h.activity⟩
  | noticeStop =>
    simp only [Connection.handle, noticeStop]
    split
    · exact h.stop _
    · exact h

theorem Known.run (h : c.Known identity) (events : List Event) :
    (c.run events).Known identity := by
  induction events generalizing c with
  | nil => exact h
  | cons e events ih => exact ih (h.handle e)

/-! ## The first frame -/

/-- The first payload settles the greeting. -/
theorem Undecided.receive (h : c.Undecided) {inp : FrameReader}
    (awaiting : c.activity = .awaiting inp) (payload : Bytes) :
    match introduction payload with
    | .ok identity => (c.receive payload).Known identity ∧
        (c.receive payload).handshake = .identified
    | .error error => (c.receive payload).Refused error := by
  unfold Connection.receive introduction
  cases Codec.binary.decode .frame payload with
  | error fault =>
    simp only [Connection.broken, awaiting]
    exact h.fail _
  | ok frame =>
    simp only [awaiting]
    cases frame with
    | initResponse identity =>
      simp only [identify]
      by_cases hversion : identity.version = protocolVersion
      · simp only [hversion, if_true, h.handshake]
        exact ⟨⟨rfl, .inl ⟨_, _, rfl⟩⟩, trivial⟩
      · simp only [hversion, if_false]
        exact h.fail _
    | _ => exact h.fail _

theorem Refused.arrived {error : Error} (h : c.Refused error) (bytes : Bytes) :
    c.arrived bytes = (c, bytes) := by
  refine arrived_deaf ?_ bytes
  simp [reader?, h.activity]

theorem Opening.At.awaiting {heard : Bytes} (h : (Opening.awaiting heard).At c) (bytes : Bytes) :
    ((Opening.awaiting heard).after c.greeting (.arrived bytes)).At (c.arrived bytes).1 := by
  obtain ⟨hundecided, inp, hactivity, hheard⟩ := h
  have hreader : c.reader? = some inp := by simp [reader?, hactivity]
  have hwith : ∀ inp', c.withReader inp' = { c with activity := .awaiting inp' } := by
    intro inp'
    simp [withReader, hactivity]
  -- The reader goes on as if all had come in at once.
  have hread := (FrameReader.read_none hheard).2 bytes
  have hfirst := FrameReader.first?_eq (heard ++ bytes)
  rw [hread] at hfirst
  simp only [Opening.after, ← hfirst]
  cases hresult : inp.read bytes with
  | mk inp' result =>
    obtain ⟨result, rest⟩ := result
    cases result with
    | none =>
      obtain ⟨rfl, -⟩ := FrameReader.read_none hresult
      rw [arrived_part hreader hresult, hwith]
      exact ⟨⟨hundecided.1, hundecided.2, hundecided.3⟩, inp', rfl, hread.trans hresult⟩
    | some result =>
      cases result with
      | error fault =>
        rw [arrived_fault hreader hresult]
        simp only [Connection.broken, hactivity]
        exact hundecided.fail _
      | ok payload =>
        rw [arrived_payload hreader hresult, hwith]
        have hundecided' : ({ c with activity := .awaiting inp' } : Connection).Undecided :=
          ⟨hundecided.1, hundecided.2, hundecided.3⟩
        have hreceive := hundecided'.receive rfl payload
        dsimp only
        cases hintroduction : introduction payload with
        | ok identity =>
          rw [hintroduction] at hreceive
          exact hreceive.1.arrived rest
        | error error =>
          rw [hintroduction] at hreceive
          rw [hreceive.arrived]
          exact hreceive

/-! ## Every event -/

/-- Whether an event goes on with what a connection is busy with. -/
def Activity.goesOn : Activity → Event → Bool
  | .dialling, .dialled | .dialling, .dialFailed _ => true
  | .greeting _, .wrote _ | .greeting _, .writeFailed _ => true
  | .awaiting _, .arrived _ | .awaiting _, .readFailed _ => true
  | .serving _ _, _ => true
  | _, _ => false

/-- Other events change nothing but calls. -/
theorem handle_idle (calm : c.stopping = false) (uncleaned : e ≠ .clean)
    (idle : Activity.goesOn c.activity e = false) : ∃ calls, c.handle e = { c with calls } := by
  have hsame : c.handle e = c → ∃ calls, c.handle e = { c with calls } := fun he => ⟨c.calls, he⟩
  cases e with
  | expect now request => exact ⟨_, rfl⟩
  | expire now => exact ⟨_, rfl⟩
  | clean => exact absurd rfl uncleaned
  | noticeStop => exact hsame (by simp [Connection.handle, noticeStop, calm])
  | _ =>
    refine hsame ?_
    cases hactivity : c.activity <;>
      simp_all [Activity.goesOn, Connection.handle, dialled, dialFailed, load, wrote, offer,
        isReading, arrived_deaf, reader?]

theorem Opening.after_idle (h : o.At c) (idle : Activity.goesOn c.activity e = false) :
    o.after c.greeting e = o := by
  cases o with
  | dialling =>
    rw [h.2] at idle
    cases e <;> first | rfl | cases idle
  | greeting rest =>
    rw [h.2.1] at idle
    cases e <;> first | rfl | cases idle
  | awaiting heard =>
    obtain ⟨-, inp, hactivity, -⟩ := h
    rw [hactivity] at idle
    cases e <;> first | rfl | cases idle
  | settled result => cases e <;> rfl

theorem Opening.At.idle (h : o.At c) (calm : c.stopping = false) (uncleaned : e ≠ .clean)
    (idle : Activity.goesOn c.activity e = false) : (o.after c.greeting e).At (c.handle e) := by
  obtain ⟨calls, hcalls⟩ := handle_idle calm uncleaned idle
  rw [Opening.after_idle h idle, hcalls]
  cases o with
  | dialling => exact ⟨⟨h.1.handshake, h.1.lastError, h.1.identity⟩, h.2⟩
  | greeting rest => exact ⟨⟨h.1.handshake, h.1.lastError, h.1.identity⟩, h.2⟩
  | awaiting heard => exact ⟨⟨h.1.handshake, h.1.lastError, h.1.identity⟩, h.2⟩
  | settled result =>
    cases result with
    | ok identity =>
      have hknown : c.Known identity := h
      exact ⟨hknown.identity, hknown.activity⟩
    | error error =>
      have hrefused : c.Refused error := h
      exact ⟨hrefused.activity, hrefused.handshake, hrefused.lastError, hrefused.identity⟩

/-- Every event leaves a connection where its stream has brought it. -/
theorem Opening.At.handle (h : o.At c) (calm : c.stopping = false) (uncleaned : e ≠ .clean) :
    (o.after c.greeting e).At (c.handle e) := by
  by_cases hidle : Activity.goesOn c.activity e = false
  · exact h.idle calm uncleaned hidle
  cases o with
  | dialling =>
    obtain ⟨hundecided, hactivity⟩ := h
    rw [hactivity] at hidle
    cases e with
    | dialled =>
      simp only [Opening.after, Connection.handle, dialled, hactivity]
      exact ⟨⟨hundecided.1, hundecided.2, hundecided.3⟩, rfl, FrameReader.framed_ne_nil _⟩
    | dialFailed error =>
      simp only [Opening.after, Connection.handle, dialFailed, hactivity]
      exact hundecided.fail _
    | _ => exact absurd rfl hidle
  | greeting rest =>
    obtain ⟨hundecided, hactivity, hrest⟩ := h
    rw [hactivity] at hidle
    cases e with
    | wrote count =>
      simp only [Opening.after, Connection.handle, wrote, hactivity]
      by_cases hempty : (rest.drop count).isEmpty = true
      · rw [if_pos hempty, if_pos hempty]
        exact ⟨⟨hundecided.1, hundecided.2, hundecided.3⟩, .start, rfl, rfl⟩
      · rw [if_neg hempty, if_neg hempty]
        exact ⟨⟨hundecided.1, hundecided.2, hundecided.3⟩, rfl, by simpa using hempty⟩
    | writeFailed error =>
      have hoffer : c.offer.isEmpty = false := by simpa [offer, hactivity] using hrest
      simp only [Opening.after, Connection.handle, hoffer, Connection.broken, hactivity]
      exact hundecided.fail _
    | _ => exact absurd rfl hidle
  | awaiting heard =>
    have hawaiting := h
    obtain ⟨hundecided, inp, hactivity, -⟩ := h
    rw [hactivity] at hidle
    cases e with
    | arrived bytes => exact hawaiting.awaiting bytes
    | readFailed error =>
      have hreading : c.isReading = true := by simp [isReading, hactivity]
      simp only [Opening.after, Connection.handle, hreading, if_true, Connection.broken, hactivity]
      exact hundecided.fail _
    | _ => exact absurd rfl hidle
  | settled result =>
    cases result with
    | ok identity =>
      have hknown : c.Known identity := h
      have hafter : (Opening.settled (.ok identity)).after c.greeting e =
          .settled (.ok identity) := by
        cases e <;> rfl
      rw [hafter]
      exact hknown.handle e
    | error error =>
      have hrefused : c.Refused error := h
      rw [hrefused.activity] at hidle
      cases e <;> exact absurd rfl hidle

/-- When it becomes known who the other side is, that is so once the first frame has
come in, before anything behind it is read. -/
theorem Opening.At.introduced {heard : Bytes} (h : (Opening.awaiting heard).At c)
    {identity : Identity}
    (known : (Opening.awaiting heard).after c.greeting (.arrived bytes) = .settled (.ok identity)) :
    ∃ first rest, bytes = first ++ rest ∧
      (c.handle (.arrived first)).handshake = .identified ∧
      (c.handle (.arrived first)).identity = some identity ∧
      c.handle (.arrived bytes) = (c.handle (.arrived first)).handle (.arrived rest) := by
  obtain ⟨hundecided, inp, hactivity, hheard⟩ := h
  have hreader : c.reader? = some inp := by simp [reader?, hactivity]
  have hread := (FrameReader.read_none hheard).2 bytes
  have hfirst := FrameReader.first?_eq (heard ++ bytes)
  rw [hread] at hfirst
  simp only [Opening.after, ← hfirst] at known
  cases hresult : inp.read bytes with
  | mk inp' result =>
    obtain ⟨result, rest⟩ := result
    rw [hresult] at known
    cases result with
    | none => cases known
    | some result =>
      cases result with
      | error fault => cases known
      | ok payload =>
        obtain ⟨first, rfl⟩ := FrameReader.read_suffix hresult
        have hfront := FrameReader.read_front hresult
        have hundecided' : ({ c with activity := .awaiting inp' } : Connection).Undecided :=
          ⟨hundecided.1, hundecided.2, hundecided.3⟩
        have hreceive := hundecided'.receive rfl payload
        have hintroduction : introduction payload = .ok identity := Opening.settled.inj known
        rw [hintroduction] at hreceive
        have hwith : c.withReader inp' = { c with activity := .awaiting inp' } := by
          simp [withReader, hactivity]
        have harrived : c.arrived first =
            (({ c with activity := .awaiting inp' } : Connection).receive payload, []) := by
          rw [arrived_payload hreader hfront, hwith, arrived_nil]
        refine ⟨first, rest, rfl, ?_, ?_, ?_⟩
        · rw [Connection.handle, harrived]
          exact hreceive.2
        · rw [Connection.handle, harrived]
          exact hreceive.1.identity
        · simp only [Connection.handle, arrived_append, harrived, List.nil_append]

/-! ## Runs -/

theorem Move.told {c c' : Connection} (m : Move c c') (h : c.stopping = true → c.cleaned = true) :
    c'.stopping = true → c'.cleaned = true := by
  cases m with
  | busy activity => exact h
  | calls steps closed => exact h
  | identify identity version activity => exact h
  | fail error => exact fun hstopping => by cases hstopping
  | stop told => exact fun hstopping => by cases hstopping
  | clean =>
    unfold Connection.clean
    split
    · exact h
    · exact fun _ => rfl

/-- Only one who was given up has been told to stop. -/
theorem Reachable.told {remote : Address} {settings : ConnectionSettings}
    (h : Reachable remote settings c) : c.stopping = true → c.cleaned = true := by
  induction h with
  | dial => exact fun hstopping => by cases hstopping
  | @handle c e _ ih =>
    have hmoves := c.handle_moves e
    generalize c.handle e = c' at hmoves
    induction hmoves with
    | refl => exact ih
    | tail _ last ih => exact last.told ih

theorem Opening.run_append (greeting : Bytes) (o : Opening) (events more : List Event) :
    o.run greeting (events ++ more) = (o.run greeting events).run greeting more :=
  List.foldl_append

theorem run_greeting (c : Connection) (events : List Event) :
    (c.run events).greeting = c.greeting := by
  rw [greeting, (c.run_moves events).announcement, greeting]

/-- One event more, of a connection that has not been given up by then. -/
theorem uncleaned_append {remote : Address} {settings : ConnectionSettings} {events : List Event}
    (kept : ((dial remote settings).run (events ++ [e])).cleaned = false) :
    let c := (dial remote settings).run events
    (dial remote settings).run (events ++ [e]) = c.handle e ∧ c.cleaned = false ∧
      c.stopping = false ∧ e ≠ .clean := by
  intro c
  have hrun : (dial remote settings).run (events ++ [e]) = c.handle e := run_append _ _ _
  rw [hrun] at kept
  have hcleaned : c.cleaned = false := by
    cases hc : c.cleaned with
    | false => rfl
    | true => exact absurd ((c.handle_later e).cleaned hc) (by simp [kept])
  have htold : c.stopping = true → c.cleaned = true := (Reachable.dial.run events).told
  refine ⟨hrun, hcleaned, ?_, ?_⟩
  · cases hs : c.stopping with
    | false => rfl
    | true => exact absurd (htold hs) (by simp [hcleaned])
  · rintro rfl
    simp [Connection.handle, Connection.clean, hcleaned] at kept

/-- A connection that has not been given up is where its stream has brought it. -/
theorem at_of_uncleaned (remote : Address) (settings : ConnectionSettings) (events : List Event)
    (kept : ((dial remote settings).run events).cleaned = false) :
    (Opening.dialling.run (dial remote settings).greeting events).At
      ((dial remote settings).run events) := by
  induction events using List.reverseRecOn with
  | nil => exact ⟨⟨rfl, rfl, rfl⟩, rfl⟩
  | append_singleton events e ih =>
    obtain ⟨hrun, hcleaned, hcalm, hne⟩ := uncleaned_append kept
    have hstep := (ih hcleaned).handle hcalm hne
    rw [run_greeting] at hstep
    rw [hrun, Opening.run_append]
    exact hstep

theorem Opening.At.known {identity : Identity} (h : o.At c) (ho : o = .settled (.ok identity)) :
    c.Known identity := by
  subst ho
  exact h

theorem Opening.At.refused {error : Error} (h : o.At c) (ho : o = .settled (.error error)) :
    c.Refused error := by
  subst ho
  exact h

theorem Opening.At.undecided (h : o.At c) (pending : ∀ result, o ≠ .settled result) :
    c.Undecided := by
  cases o with
  | settled result => exact absurd rfl (pending result)
  | _ => exact h.1

/-- Only what its stream has settled can be noted. -/
theorem Opening.At.noted {identity : Identity} (h : o.At c)
    (known : c.identity = some identity) : o = .settled (.ok identity) := by
  cases o with
  | settled result =>
    cases result with
    | ok identity' =>
      obtain rfl := Option.some.inj ((h.known rfl).identity.symm.trans known)
      rfl
    | error error => cases (h.refused rfl).identity.symm.trans known
  | _ => cases h.1.identity.symm.trans known

theorem Opening.At.identified (h : o.At c) (identified : c.handshake = .identified) :
    ∃ identity, o = .settled (.ok identity) := by
  cases o with
  | settled result =>
    cases result with
    | ok identity => exact ⟨identity, rfl⟩
    | error error => cases (h.refused rfl).handshake.symm.trans identified
  | _ => cases h.1.handshake.symm.trans identified

/-- Who is known has been identified when the first frame had come in. -/
theorem identified_of_settled (remote : Address) (settings : ConnectionSettings)
    (events : List Event) (kept : ((dial remote settings).run events).cleaned = false)
    {identity : Identity}
    (known : Opening.dialling.run (dial remote settings).greeting events =
      .settled (.ok identity)) :
    ∃ before first rest after, events = before ++ .arrived (first ++ rest) :: after ∧
      let c := (dial remote settings).run (before ++ [.arrived first])
      c.handshake = .identified ∧ c.identity = some identity ∧
        (dial remote settings).run events = c.run (.arrived rest :: after) := by
  induction events using List.reverseRecOn with
  | nil => cases known
  | append_singleton events e ih =>
    obtain ⟨hrun, hcleaned, hcalm, hne⟩ := uncleaned_append kept
    have hat := at_of_uncleaned remote settings events hcleaned
    have hgreeting := run_greeting (dial remote settings) events
    rw [Opening.run_append] at known
    generalize Opening.dialling.run (dial remote settings).greeting events = o at hat known ih
    cases o with
    | dialling => cases e <;> cases known
    | greeting rest =>
      cases e with
      | wrote count =>
        simp only [Opening.run, List.foldl_cons, List.foldl_nil, Opening.after] at known
        split at known <;> cases known
      | _ => cases known
    | awaiting heard =>
      cases e with
      | arrived bytes =>
        rw [← hgreeting] at known
        obtain ⟨first, rest, rfl, hidentified, hidentity, hsplit⟩ := hat.introduced known
        refine ⟨events, first, rest, [], rfl, ?_⟩
        have hc : (dial remote settings).run (events ++ [.arrived first]) =
            ((dial remote settings).run events).handle (.arrived first) := run_append _ _ _
        rw [hc, hrun, hsplit]
        exact ⟨hidentified, hidentity, rfl⟩
      | _ => cases known
    -- It was settled before, and the split of the earlier events serves again.
    | settled result =>
      have hsame : (Opening.settled result).run (dial remote settings).greeting [e] =
          .settled result := by
        cases e <;> rfl
      obtain ⟨before, first, rest, after, rfl, hidentified, hidentity, hmore⟩ :=
        ih hcleaned (hsame.symm.trans known)
      refine ⟨before, first, rest, after ++ [e], by simp, hidentified, hidentity, ?_⟩
      rw [run_append, hmore]
      exact (run_append _ _ _).symm

/-! ## The end of the stream -/

/-- On a pipe that has ended, what is in it comes in first and then the end, wherever
in a frame that is. -/
theorem drain_eq (c : Connection) (p : Pipe) :
    (c.drain p).1 =
      c.run (.arrived p.buffer :: if p.closed then [.readFailed .closed] else []) := by
  unfold drain
  by_cases hreading : c.isReading = true
  · rw [if_pos hreading]
    cases hclosed : p.closed with
    | false => simp [run, handle]
    | true => simp [run, handle]
  · have hnone : c.reader? = none := c.reader?_of_deaf (by simpa using hreading)
    rw [if_neg hreading]
    cases hclosed : p.closed with
    | false => simp [run, handle, arrived_deaf hnone]
    | true => simp [run, handle, arrived_deaf hnone, hreading]

end RpcClient.Connection
