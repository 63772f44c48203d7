/-
What a call says, by the request that it is made of. A request is built in steps, in any
order: of those for one key the last counts (`Request.build_built`). What is sent then
becomes a call that says just what the request does (`Service.prepare_becomes`), but for two
transport headers: there sending has the first word (`Outgoing.imposed?`), then the caller,
and what is assumed of a call that says nothing comes last (`Outgoing.assumed?`).
-/
import RpcClient.Proofs.Client.Request
import RpcClient.Proofs.Dict

namespace RpcClient

/-! ## Building a request -/

namespace Request

variable {β : Type}

/-- A step in building a request. -/
inductive Step where
  | header (key value : String)
  | transport (key value : String)
  | timeout (span : Duration)

namespace Step

def header? : Step → Option (String × String)
  | .header key value => some (key, value)
  | _ => none

def transport? : Step → Option (String × String)
  | .transport key value => some (key, value)
  | _ => none

def timeout? : Step → Option Duration
  | .timeout span => some span
  | _ => none

end Step

/-- A request after one step more. -/
def add (r : Request β) : Step → Request β
  | .header key value => r.withHeader key value
  | .transport key value => r.setTransport key value
  | .timeout span => r.withTimeout span

/-- The request that some steps make. -/
def build (service endpoint : String) (steps : List Step) (body : β) : Request β :=
  steps.foldl add { service, endpoint, body }

/-- A request asks what some steps say, of those for one key the last. -/
structure Built (r : Request β) (service endpoint : String) (steps : List Step) : Prop where
  service : r.service = service
  endpoint : r.endpoint = endpoint
  headers : ∀ key, r.headers.find? key = (steps.filterMap Step.header?).reverse.lookup key
  transport : ∀ key,
    r.transportHeaders.find? key = (steps.filterMap Step.transport?).reverse.lookup key
  timeout : r.timeout = (steps.filterMap Step.timeout?).getLast?

theorem foldl_add (steps : List Step) (r : Request β) :
    steps.foldl add r =
      { r with
        headers := r.headers.insertMany (steps.filterMap Step.header?)
        transportHeaders := r.transportHeaders.insertMany (steps.filterMap Step.transport?)
        timeout := ((steps.filterMap Step.timeout?).getLast?).or r.timeout } := by
  induction steps generalizing r with
  | nil => rfl
  | cons step steps ih =>
    rw [List.foldl_cons, ih]
    cases step with
    | header key value => rfl
    | transport key value => rfl
    | timeout span =>
      simp only [add, withTimeout, Step.header?, Step.transport?, Step.timeout?,
        List.filterMap_cons, List.getLast?_cons]
      cases (steps.filterMap Step.timeout?).getLast? <;> rfl

/-- Steps of different kinds, or for different keys, do not touch each other. -/
theorem build_built (service endpoint : String) (steps : List Step) (body : β) :
    (build service endpoint steps body).Built service endpoint steps := by
  rw [build, foldl_add]
  refine ⟨rfl, rfl, fun key => ?_, fun key => ?_, Option.or_none⟩
  · exact (Dict.find?_insertMany _ _ key).trans Option.or_none
  · exact (Dict.find?_insertMany _ _ key).trans Option.or_none

end Request

/-! ## Registering codecs -/

namespace Codecs

variable (registrations : List (Scheme × Codec)) (scheme : Scheme)

/-- The codecs after some were registered, one after another. -/
def registered : Codecs := registrations.foldl (fun codecs r => codecs.set r.1 r.2) {}

/-- The codec that was registered last for a scheme, or else its first one. -/
def last? : Option Codec := (registrations.reverse.lookup scheme).or (({} : Codecs).find? scheme)

theorem find?_set (codecs : Codecs) (r : Scheme × Codec) (scheme : Scheme) :
    (codecs.set r.1 r.2).find? scheme = if scheme = r.1 then some r.2 else codecs.find? scheme := by
  split
  · next heq => rw [heq, find?_set_self]
  · next hne => rw [find?_set_other codecs r.2 hne]

theorem find?_registered : (registered registrations).find? scheme = last? registrations scheme :=
  foldl_latest find?_set registrations {} scheme

end Codecs

/-! ## What is sent -/

namespace Outgoing

/-- What a caller sends, but for the body. -/
def form : Outgoing → Request Unit
  | .plain request | .raw request => request.withBody ()
  | .encoded request _ _ => request.withBody ()

/-- The transport headers that sending sets, whatever the caller has set. -/
def imposed? (caller key : String) : Outgoing → Option String
  | .plain _ => none
  | .raw _ => if key = Headers.callerKey then some caller else none
  | .encoded _ scheme _ =>
    if key = Headers.callerKey then some caller
    else if key = Headers.schemeKey then some scheme.tag else none

/-- The transport headers that are set where nothing is said. -/
def assumed? (key : String) : Option String :=
  if key = Headers.schemeKey then some Scheme.raw.tag else none

/-- The bytes that go out are those that the caller sends, or else what the codec makes of its
body that was registered last. -/
def Puts (registrations : List (Scheme × Codec)) (bytes : Bytes) : Outgoing → Prop
  | .plain request | .raw request => bytes = request.body
  | .encoded request scheme _ =>
    ∃ codec, Codecs.last? registrations scheme = some codec ∧
      codec.encodeBody request.body = .ok bytes

/-- A call says what was sent under the name of a caller, and may take so long. -/
structure Becomes (out : Outgoing) (registrations : List (Scheme × Codec)) (caller : String)
    (timeout : Duration) (call : Call) : Prop where
  service : call.service = out.form.service
  endpoint : call.endpoint = out.form.endpoint
  headers : call.headers = out.form.headers
  transport : ∀ key, call.transportHeaders.find? key =
    (out.imposed? caller key).or ((out.form.transportHeaders.find? key).or (assumed? key))
  body : out.Puts registrations call.body
  ttl : call.ttlMs.toNat = min timeout.millis (UInt32.size - 1)

end Outgoing

theorem Request.toCall_ttl (r : Request Bytes) (id : UInt32) (timeout : Duration) :
    (r.toCall id timeout).ttlMs.toNat = min timeout.millis (UInt32.size - 1) :=
  UInt32.toNat_ofNat_of_lt' (Nat.lt_of_le_of_lt (Nat.min_le_right _ _) (by decide))

namespace Service

variable {s : Service} {out : Outgoing} {request : Request Bytes} {reader : ReplyReader}
  {registrations : List (Scheme × Codec)}

/-- What a service makes of what is sent says what that does. -/
theorem prepare_becomes (prepared : s.prepare out = .ok (request, reader))
    (codecs : s.codecs = .registered registrations) (usual : Duration) (id : UInt32) :
    request.effectiveTimeout usual = out.form.timeout.getD usual ∧
      out.Becomes registrations s.caller (out.form.timeout.getD usual)
        (request.called usual id) := by
  cases out with
  | plain own =>
    obtain ⟨rfl, -⟩ := Prod.mk.inj (Except.ok.inj prepared)
    refine ⟨rfl, rfl, rfl, rfl, fun key => ?_, rfl, Request.toCall_ttl _ _ _⟩
    exact Dict.find?_insertIfNew _ _ _ _
  | raw own =>
    obtain ⟨rfl, -⟩ := Prod.mk.inj (Except.ok.inj prepared)
    refine ⟨rfl, rfl, rfl, rfl, fun key => ?_, rfl, Request.toCall_ttl _ _ _⟩
    refine (Dict.find?_insertIfNew _ _ _ _).trans ?_
    rw [Request.setTransport, Dict.find?_insert]
    simp only [Outgoing.imposed?]
    split <;> rfl
  | encoded own scheme replyKind =>
    simp only [prepare, codecs, Codecs.find?_registered] at prepared
    cases hcodec : Codecs.last? registrations scheme with
    | none => simp [hcodec] at prepared
    | some codec =>
      cases hbytes : codec.encodeBody own.body with
      | error fault => simp [hcodec, Request.encode, hbytes, bind, Except.bind] at prepared
      | ok bytes =>
        simp only [hcodec, Request.encode, hbytes, bind, Except.bind, Except.ok.injEq,
          Prod.mk.injEq] at prepared
        obtain ⟨rfl, -⟩ := prepared
        refine ⟨rfl, rfl, rfl, rfl, fun key => ?_, ⟨codec, hcodec, hbytes⟩,
          Request.toCall_ttl _ _ _⟩
        refine (Dict.find?_insertIfNew _ _ _ _).trans ?_
        simp only [Request.setTransport, Dict.find?_insert, Outgoing.imposed?, Outgoing.assumed?]
        split
        · rfl
        · split <;> rfl

end Service

end RpcClient
