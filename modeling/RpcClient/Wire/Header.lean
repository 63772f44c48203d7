/-
Headers: texts under textual keys. Transport headers are for the layers that
carry a call; the keys they use are listed here.
-/
import RpcClient.Dict
import RpcClient.Wire.Code

namespace RpcClient

/-- Headers of a call or of a reply. -/
abbrev Headers := Dict String String

namespace Headers

/-! ## Known keys -/

/-- Under which a call says how its body is serialised. -/
def schemeKey : String := "as"

/-- Under which a call names the service that makes it. -/
def callerKey : String := "cn"

def retryKey : String := "re"
def speculativeKey : String := "se"
def failureDomainKey : String := "fd"
def shardKey : String := "sk"
def delegateKey : String := "rd"

/-- The scheme that headers name, if they name one. -/
def scheme? (h : Headers) : Option (Except CodeError Scheme) :=
  (h.find? schemeKey).map Scheme.ofTag

end Headers

end RpcClient
