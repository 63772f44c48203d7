/-
A request is refused at once, or it is sent for good. What can be refused is known
before anything happens (`Service.refusal?`), so that then nothing has happened
(`send_refused`). All else is sent (`Reachable.send_accepted`), and from
then on either one connection has been identified in time and has one call for it, or
no connection has any, and its own is of no more use (`refused_or_called_once`).
-/
import RpcClient.Client.Send
import RpcClient.Proofs.Client.Look

namespace RpcClient

/-! ## What is refused -/

namespace Service

/-- Why no request can be made of what a caller sends: there is no codec for its scheme,
or else its body cannot be encoded. -/
def unprepared? (s : Service) (out : Outgoing) : Option Error :=
  match out with
  | .plain _ | .raw _ => none
  | .encoded request scheme _ =>
    match s.codecs.find? scheme with
    | none => some (.unsupportedScheme scheme)
    | some codec =>
      match codec.encodeBody request.body with
      | .error fault => some (.link (.codec fault))
      | .ok _ => none

/-- Why a service refuses at once what a caller sends: no request can be made of it, or
else there is nowhere to send it. -/
def refusal? (s : Service) (out : Outgoing) (target : Option Address) : Option Error :=
  (s.unprepared? out).or (if target.isNone && s.peers.isEmpty then some .noPeer else none)

variable {s : Service} {out : Outgoing} {target : Option Address}

theorem prepare_eq_error {error : Error} :
    s.prepare out = .error error ↔ s.unprepared? out = some error := by
  cases out with
  | plain request => simp [prepare, unprepared?]
  | raw request => simp [prepare, unprepared?]
  | encoded request scheme replyKind =>
    simp only [prepare, unprepared?]
    cases s.codecs.find? scheme with
    | none => simp
    | some codec =>
      cases hbody : codec.encodeBody request.body with
      | error fault => simp [Request.encode, hbody, bind, Except.bind]
      | ok bytes => simp [Request.encode, hbody, bind, Except.bind]

theorem prepare_eq_ok (h : s.unprepared? out = none) :
    ∃ request reader, s.prepare out = .ok (request, reader) := by
  cases hprepare : s.prepare out with
  | error error => cases h.symm.trans (prepare_eq_error.1 hprepare)
  | ok prepared => exact ⟨prepared.1, prepared.2, rfl⟩

theorem refusal?_eq_some {error : Error} (h : s.refusal? out target = some error) :
    s.prepare out = .error error ∨
      (∃ request reader, s.prepare out = .ok (request, reader)) ∧ target = none ∧ s.peers = [] ∧
        error = .noPeer := by
  unfold refusal? at h
  cases hunprepared : s.unprepared? out with
  | some cause =>
    rw [hunprepared, Option.some_or, Option.some.injEq] at h
    exact .inl (prepare_eq_error.2 (hunprepared.trans (congrArg some h)))
  | none =>
    rw [hunprepared, Option.none_or] at h
    split at h
    · next hnowhere =>
      obtain ⟨htarget, hpeers⟩ := Bool.and_eq_true_iff.1 hnowhere
      exact .inr ⟨prepare_eq_ok hunprepared, Option.isNone_iff_eq_none.1 htarget,
        List.isEmpty_iff.1 hpeers, (Option.some.inj h).symm⟩
    · cases h

theorem refusal?_eq_none (h : s.refusal? out target = none) :
    (∃ request reader, s.prepare out = .ok (request, reader)) ∧
      (target = none → s.peers ≠ []) := by
  obtain ⟨hprepared, hsomewhere⟩ := Option.or_eq_none_iff.1 h
  refine ⟨prepare_eq_ok hprepared, ?_⟩
  rintro rfl hpeers
  simp [hpeers] at hsomewhere

end Service

namespace Client

variable {c c' : Client} {e : Event} {before events : List Event} {i : ServiceId} {s : Service}
  {out : Outgoing} {target : Option Address} {start : Nat} {j k : ConnectionId} {d : DispatchId}
  {settings : Settings} {codecs : Codecs}

/-! ## Step by step -/

/-- Who gets a connection through a service gets it in single steps too. -/
theorem seek_eq (h : c.connect i start = .ok (c', j)) : c.seek i start = (c', .ok j) := by
  obtain ⟨c₁, place, hchoose, hrest⟩ := connect_ok h
  rcases hrest with hpreferred | ⟨c₂, hpreferred, hconnect⟩
  · simp only [seek, hchoose, hpreferred]
  · simp only [seek, hchoose, hpreferred, hconnect]

theorem aim_eq (h : c.route i target start = .ok (c', j)) (somewhere : target = none → s.peers ≠ []) :
    c.aim i s target start = (c', .ok j) := by
  cases target with
  | some address =>
    obtain ⟨rfl, rfl⟩ := Prod.mk.inj (Except.ok.inj h)
    rfl
  | none =>
    have hpeers : s.peers.isEmpty = false := by simpa using somewhere rfl
    simp only [aim, hpeers]
    exact seek_eq h

theorem aim_nowhere (h : s.peers = []) : c.aim i s none start = (c, .error .noPeer) := by
  simp [aim, h]

/-- A service that has no peers chooses none. -/
theorem route_nowhere (hs : c.services[i]? = some s) (h : s.peers = []) :
    c.route i none start = .error .noPeer := by
  have hchoose : (c.choose i start).2 = none := by
    simp [choose, hs, h, scan, scanOrder, scanPlaces]
  rw [route, connect]
  split
  · rfl
  · next hchosen =>
    rw [hchosen] at hchoose
    cases hchoose

/-- Where a request is to go that has somewhere to go. -/
theorem Reachable.routed (h : Reachable settings codecs c) (hs : c.services[i]? = some s)
    (somewhere : target = none → s.peers ≠ []) (start : Nat) :
    ∃ c' j, c.route i target start = .ok (c', j) := by
  cases target with
  | some address => exact ⟨_, _, rfl⟩
  | none =>
    exact connect_of_peers hs (h.unreleased s (List.mem_of_getElem? hs)) (somewhere rfl) start

/-- What is refused has changed nothing, at whatever step. -/
theorem send_refused (hs : c.services[i]? = some s) {error : Error}
    (refused : s.refusal? out target = some error) (start : Nat) :
    c.send i out target start = (c, .error error) ∧
      c.handle (.dispatch i out target start) = c := by
  rcases Service.refusal?_eq_some refused with hprepare | ⟨⟨_, _, hprepare⟩, rfl, hpeers, rfl⟩
  · refine ⟨by simp [send, hs, hprepare], ?_⟩
    simp [handle, dispatch, hs, hprepare, bind, Except.bind, orSame]
  · have hroute : c.route i none start = .error .noPeer := route_nowhere hs hpeers
    refine ⟨by simp [send, hs, hprepare, aim_nowhere hpeers], ?_⟩
    simp [handle, dispatch, hs, hprepare, hroute, bind, Except.bind, orSame]

/-- What is not refused is sent. -/
theorem Reachable.send_accepted (h : Reachable settings codecs c) (hs : c.services[i]? = some s)
    (accepted : s.refusal? out target = none) (start : Nat) :
    ∃ c', c.dispatch i out target start = .ok (c', c.dispatches.length) ∧
      c.send i out target start = (c', .ok c.dispatches.length) := by
  obtain ⟨⟨request, reader, hprepare⟩, hsomewhere⟩ := Service.refusal?_eq_none accepted
  obtain ⟨c₁, j, hroute⟩ := h.routed hs hsomewhere start
  have hdispatch := dispatch_of_route hs hprepare hroute
  have hlength : c₁.dispatches.length = c.dispatches.length := by
    rw [(route_opens hroute).dispatches]
  refine ⟨_, hlength ▸ hdispatch, ?_⟩
  simp only [send, hs, hprepare, aim_eq hroute hsomewhere, enter, hlength]

/-! ## What becomes of the rest -/

/-- A run has registered no call for a request. -/
def Unregistered (c₀ : Client) (events : List Event) (d : DispatchId) : Prop :=
  ∀ k, ∀ r ∈ c₀.log k events, r.request ≠ some d

/-- A run has registered a request as one call, on one connection, at one instant. -/
structure CalledOnce (c₀ : Client) (events : List Event) (d : DispatchId)
    (request : Request Bytes) (k : ConnectionId) (n : Ticket) (time : Nat) : Prop where
  entry : ∃ id, (c₀.log k events)[n]? = some
    ⟨some d, .callRequest (request.called c₀.settings.requestTimeout id), time⟩
  once : ∀ (k' : ConnectionId) (n' : Ticket) (r : Registration),
    (c₀.log k' events)[n']? = some r → r.request = some d → k' = k ∧ n' = n

/-- A request that does not wait any more, and is no call, is registered as none, whatever
comes after. -/
theorem unregistered_of_settled {entry : Dispatch} :
    let c₀ := Client.start settings codecs
    (c₀.run events).dispatches[d]? = some entry → (∀ w, entry.progress ≠ .waiting w) →
      (∀ k n, entry.progress ≠ .sent k (.waiting n)) →
      ∀ more, Unregistered c₀ (events ++ more) d := by
  intro c₀ hd settled unsent more k r hr
  have hkept : (c₀.run (events ++ more)).dispatches[d]? = some entry := by
    rw [run_append]
    exact run_settled hd settled more
  exact (traced_run settings codecs (events ++ more)).unsent hkept unsent hr

variable {reader : ReplyReader} {w : Waiting}

theorem isWaiting_of_waiting (hd : c.dispatches[d]? = some ⟨reader, .waiting w⟩) :
    c.isWaiting d = true := by
  simp [isWaiting, hd]

/-- A request that waits is registered as no call so far, and its time is not over. -/
theorem waits_unregistered :
    let c₀ := Client.start settings codecs
    let c := c₀.run events
    c.dispatches[d]? = some ⟨reader, .waiting w⟩ →
      c.isWaiting d = true ∧ ¬ c.IsOver w.deadline ∧ Unregistered c₀ events d := by
  intro c₀ c hd
  have hreach : Reachable settings codecs c := Reachable.start.run events
  refine ⟨isWaiting_of_waiting hd, fun hover => ?_, fun k r hr => ?_⟩
  · obtain ⟨later, hlt, hspares⟩ := hover.not_spares hreach.timely
    exact absurd (hspares.waiting d reader w hd) (Nat.not_le.2 hlt)
  · exact (traced_run settings codecs events).unsent hd nofun hr

/-- A request is in no other place of the logs. -/
theorem calledOnce {n : Ticket} {id : UInt32} {request : Request Bytes} {time : Nat} :
    let c₀ := Client.start settings codecs
    (c₀.log k events)[n]? = some
        ⟨some d, .callRequest (request.called c₀.settings.requestTimeout id), time⟩ →
      CalledOnce c₀ events d request k n time := by
  intro c₀ hentry
  refine ⟨⟨id, hentry⟩, fun k' n' r hr hrequest => ?_⟩
  exact (traced_run settings codecs events).once hr hentry hrequest rfl

/-- **Refused at once, or sent for good.** Whatever has happened to a client, a service of it
refuses to send just what is known to be in vain, for the first of these reasons: there is
no codec for the scheme, the body cannot be encoded, or there is neither a target nor a
peer. Then nothing at all has changed. All else is sent. After any run that follows, the
request waits, and its time is not over; or its caller has gone; or it has looked at
its connection. If this was identified in time, the request has become one call there, and
no other anywhere, unless the connection had no number left for it. If the connection had
failed, or was pending when the time was over, then the request has failed, is registered
nowhere, now and later, and the connection is of no more use. -/
theorem refused_or_called_once (settings : Settings) (codecs : Codecs) (before : List Event)
    (hs : ((Client.start settings codecs).run before).services[i]? = some s)
    (out : Outgoing) (target : Option Address) (start : Nat) :
    let c₀ := Client.start settings codecs
    let c := c₀.run before
    let e := Event.dispatch i out target start
    let d := c.dispatches.length
    (∀ error, (c.send i out target start).2 = .error error ↔
      s.refusal? out target = some error) ∧
    (∀ error, (c.send i out target start).2 = .error error →
      (c.send i out target start).1 = c ∧ c.handle e = c) ∧
    (s.refusal? out target = none → c.send i out target start = (c.handle e, .ok d) ∧
      ∃ reader w, c.Enters i out target start reader w ∧ ∀ after,
        let events := before ++ e :: after
        let c' := c₀.run events
        (c'.isWaiting d = true ∧ ¬ c'.IsOver w.deadline ∧ Unregistered c₀ events d) ∨
        (c'.dispatches[d]? = some ⟨reader, .abandoned⟩ ∧
          ∀ more, Unregistered c₀ (events ++ more) d) ∨
        ∃ early near, Looked c₀ before events d w early near ∧
          let looked := (c₀.run early).now
          (near.handshake = .identified ∧ looked ≤ w.deadline ∧
              ((∃ n, c'.dispatches[d]? = some ⟨reader, .sent w.connection (.waiting n)⟩ ∧
                  CalledOnce c₀ events d w.request w.connection n looked) ∨
                c'.dispatches[d]? = some ⟨reader, .sent w.connection .searching⟩ ∧
                  UInt32.size ≤ near.pendingCount) ∨
            (near.handshake = .failed ∨ near.handshake = .pending ∧ looked = w.deadline) ∧
              c'.outcome? d = some (.error (Waiting.report w near)) ∧
              (∀ more, Unregistered c₀ (events ++ more) d) ∧
              ∃ near', c'.connections[w.connection]? = some near' ∧ near'.isUsable = false)) := by
  intro c₀ c e d
  have hreach : Reachable settings codecs c := Reachable.start.run before
  cases hrefusal : s.refusal? out target with
  | some cause =>
    obtain ⟨hsend, he⟩ := send_refused hs hrefusal start
    rw [hsend]
    refine ⟨fun error => ?_, fun error _ => ⟨rfl, he⟩, fun hnone => ?_⟩
    · rw [Except.error.injEq, Option.some.injEq]
    · cases hnone
  | none =>
    obtain ⟨c', hdispatch, hsend⟩ := hreach.send_accepted hs hrefusal start
    have he : c.handle e = c' := handle_dispatch hdispatch
    obtain ⟨reader, w, henters, -, hfares⟩ := fares_run hdispatch
    refine ⟨fun error => ⟨fun herror => ?_, fun hnone => ?_⟩, fun error herror => ?_,
      fun _ => ⟨he ▸ hsend, ?_⟩⟩
    · rw [hsend] at herror
      cases herror
    · cases hnone
    · rw [hsend] at herror
      cases herror
    refine ⟨reader, w, henters, fun after => ?_⟩
    intro events c''
    obtain ⟨progress, hd, hprogress⟩ := hfares after
    cases hprogress with
    | waiting => exact .inl (waits_unregistered hd)
    | abandoned => exact .inr (.inl ⟨hd, unregistered_of_settled hd nofun nofun⟩)
    | @made early near n id looked identified soon entry =>
      exact .inr (.inr ⟨early, near, looked, .inl ⟨identified, soon,
        .inl ⟨n, hd, calledOnce entry⟩⟩⟩)
    | @searching early near looked identified soon full =>
      exact .inr (.inr ⟨early, near, looked, .inl ⟨identified, soon, .inr ⟨hd, full⟩⟩⟩)
    | @failed early near looked unidentified unusable =>
      exact .inr (.inr ⟨early, near, looked, .inr ⟨unidentified, outcome?_failed hd,
        unregistered_of_settled hd nofun nofun, unusable⟩⟩)

/-- A service without peers refuses a raw request that has no target. One that has becomes
the first call of its connection. -/
theorem raw_request_called_once :
    let c₀ := Client.start {} {}
    let before : List Event := [.service "ledger" .outbound]
    let target : Address := .v4 127 0 0 1 4040
    let e := Event.dispatch 0 (.raw balanceRequest) target 0
    ∃ s, (c₀.run before).services[0]? = some s ∧
      (c₀.run before).send 0 (.raw balanceRequest) none 0 = (c₀.run before, .error .noPeer) ∧
      ∃ request time, CalledOnce c₀ (before ++ e :: introduction) 0 request 0 0 time := by
  intro c₀ before target e
  have hsome : ((c₀.run before).services[0]?).isSome := by decide +kernel
  obtain ⟨s, hs⟩ := Option.isSome_iff_exists.1 hsome
  refine ⟨s, hs, ?_, ?_⟩
  · obtain ⟨hrefused, hsame, -⟩ :=
      refused_or_called_once {} {} before hs (.raw balanceRequest) none 0
    have hpeers : ((c₀.run before).services[0]?).map (·.peers.isEmpty) = some true := by
      decide +kernel
    rw [hs, Option.map_some, Option.some.injEq] at hpeers
    have herror := (hrefused .noPeer).2 (by simp [Service.refusal?, Service.unprepared?, hpeers])
    exact Prod.ext (hsame _ herror).1 herror
  · obtain ⟨-, -, haccepted⟩ :=
      refused_or_called_once {} {} before hs (.raw balanceRequest) (some target) 0
    obtain ⟨-, reader, w, -, hruns⟩ := haccepted rfl
    have hfirst : (c₀.run before).dispatches.length = 0 := by decide +kernel
    rw [hfirst] at hruns
    have hplace : (c₀.run (before ++ e :: introduction)).place? 0 0 = some 0 := by decide +kernel
    obtain ⟨entry, hentry, hplace⟩ := Option.bind_eq_some_iff.1 hplace
    have hsent := Progress.place?_eq_some.1 hplace
    rcases hruns introduction with ⟨hwaiting, -⟩ | ⟨habandoned, -⟩ | ⟨early, near, -, hlook⟩
    · rw [not_waiting hentry (by simp [hsent])] at hwaiting
      cases hwaiting
    · cases hentry.symm.trans habandoned
      cases hsent
    rcases hlook with ⟨-, -, ⟨n, hcalled, honce⟩ | ⟨hsearching, -⟩⟩ | ⟨-, hfailed, -⟩
    · cases hentry.symm.trans hcalled
      obtain ⟨hk, hn⟩ := Progress.sent.inj hsent
      rw [hk, Handle.waiting.inj hn] at honce
      exact ⟨_, _, honce⟩
    · cases hentry.symm.trans hsearching
      obtain ⟨-, hhandle⟩ := Progress.sent.inj hsent
      cases hhandle
    · have hopen : ((c₀.run (before ++ e :: introduction)).outcome? 0).isNone := by decide +kernel
      rw [hfailed] at hopen
      cases hopen

end Client

end RpcClient
