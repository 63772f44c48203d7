/-
What a client is told when it is made: its name, how it announces itself, and
how long it waits. Settings may come as a JSON record in which every field may
be missing.
-/
import RpcClient.Duration
import RpcClient.Json.Format

namespace RpcClient

/-- The settings of a client. Times are in milliseconds. -/
structure Settings where
  /-- The name under which the client makes calls. -/
  serviceName : String := ""
  /-- The name under which it announces itself to the other side. -/
  processName : String := "switchboard[PID]"
  /-- How long a request waits for a connection to be identified. -/
  initTimeoutMs : UInt64 := 2000
  /-- How long a call takes at most, if its request does not say. -/
  requestTimeoutMs : UInt64 := 1000
  /-- How long dialling takes at most. -/
  connectTimeoutMs : UInt64 := 1000
deriving DecidableEq

namespace Settings

def initTimeout (s : Settings) : Duration := .ofMillis s.initTimeoutMs.toNat
def requestTimeout (s : Settings) : Duration := .ofMillis s.requestTimeoutMs.toNat
def connectTimeout (s : Settings) : Duration := .ofMillis s.connectTimeoutMs.toNat

/-- A span in whole milliseconds, as far as 64 bits go. -/
def clampMillis (d : Duration) : UInt64 := UInt64.ofNat (d.millisUpTo (UInt64.size - 1))

def withInitTimeout (s : Settings) (d : Duration) : Settings :=
  { s with initTimeoutMs := clampMillis d }

def withRequestTimeout (s : Settings) (d : Duration) : Settings :=
  { s with requestTimeoutMs := clampMillis d }

def withConnectTimeout (s : Settings) (d : Duration) : Settings :=
  { s with connectTimeoutMs := clampMillis d }

open Json.Format in
/-- Settings as a JSON record. An array of fields may end early. -/
def ofDocument? (depth : Nat) (doc : Json.Document) : Option Settings := do
  let usual : Settings := {}
  match ← fields?
      ["service_name", "process_name", "init_timeout_ms", "request_timeout_ms",
        "connect_timeout_ms"] true depth doc with
  | (depth, [serviceName, processName, initTimeout, requestTimeout, connectTimeout]) =>
    pure
      { serviceName := ← withDefault text usual.serviceName depth serviceName
        processName := ← withDefault text usual.processName depth processName
        initTimeoutMs := ← withDefault u64 usual.initTimeoutMs depth initTimeout
        requestTimeoutMs := ← withDefault u64 usual.requestTimeoutMs depth requestTimeout
        connectTimeoutMs := ← withDefault u64 usual.connectTimeoutMs depth connectTimeout }
  | _ => none

/-- Reads settings from JSON. -/
def parse? (bytes : Bytes) : Option Settings :=
  (Json.parse? bytes).bind (ofDocument? Json.deepest)

end Settings

end RpcClient
