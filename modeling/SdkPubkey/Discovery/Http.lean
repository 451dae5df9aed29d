import Mathlib.Algebra.Group.Int.Defs
import Mathlib.Algebra.Group.Nat.Defs
import Mathlib.Data.List.Infix
import SdkPubkey.Ckvf.Json
import SdkPubkey.Lib.Prog

/-!
# Requests to the pubkey hosts

`crates/discovery/src/http.rs` and `errors.rs`: `pubkeyRequest` sends a request up to four times,
until an attempt ends in anything but a timeout or a failed connection. `parse` is
`serde_json::from_str`, and `wasm` tells the build for a browser.
-/

namespace Discovery

open Lib

/-! ## Errors -/

structure PubkeyError where
  code : String
  message : String
  status : Option Nat := none
  serverTime : Option Json := none
deriving DecidableEq

/-- The codes that mean that this exact signed envelope was already accepted. -/
def isPubkeyReplayRejection (code : String) : Bool :=
  code == "nonce_replayed" || code == "replay_rejection"

namespace PubkeyError

def isReplayRejection (e : PubkeyError) : Bool := isPubkeyReplayRejection e.code

def requestFailed (status : Nat) : String := "Pubkey request failed (" ++ toString status ++ ")"

/-- The error in the body of a response. -/
def fromResponse (status : Nat) (body : Json) : PubkeyError :=
  match (body.field? "error").bind Json.asObject with
  | some nested =>
    { code := (((Json.obj nested).stringField? "code").or (body.stringField? "code")).getD
        "server_error"
      message := (((Json.obj nested).stringField? "message").or (body.stringField? "message")).getD
        (requestFailed status)
      status := some status
      serverTime := ((Json.Obj.get? nested "details").bind (·.field? "server_time")).or
        (body.field? "server_time") }
  | none =>
    { code := ((body.stringField? "error").or (body.stringField? "code")).getD "server_error"
      message := (body.stringField? "message").getD (requestFailed status)
      status := some status
      serverTime := body.field? "server_time" }

end PubkeyError

def unreachableMessage : String := "The pubkey server could not be reached."
def httpsFailedMessage : String :=
  "The pubkey server was reached but HTTPS could not be established."
def timeoutMessage : String := "The pubkey server did not respond in time."

def unreachableError : PubkeyError :=
  { code := "pubkey_unreachable", message := unreachableMessage, status := some 0 }
def timeoutError : PubkeyError :=
  { code := "request_timeout", message := timeoutMessage, status := some 0 }
def httpsFailedError : PubkeyError :=
  { code := "https_could_not_be_established", message := httpsFailedMessage, status := some 0 }

/-! ## Transport -/

/-- A `reqwest::Error`: its text, also in lower case, and what it says of its kind. -/
structure TransportError where
  text : String
  lowerText : String
  isTimeout : Bool := false
  isConnect : Bool := false
deriving DecidableEq

inductive TransportKind where
  | timeout
  | tls
  | unreachable
  | other
deriving DecidableEq

def hasText (text part : String) : Bool := decide (part.toList <:+: text.toList)

def classifyTransport (wasm : Bool) (err : TransportError) : TransportKind :=
  let has := hasText err.lowerText
  if err.isTimeout then .timeout
  else if has "handshake" || has "certificate" || has "tls" || has "ssl" ||
      has "badcertificate" then
    .tls
  else if (!wasm && err.isConnect) || has "connection failed" || has "connection refused" ||
      has "connection reset" || has "dns" || has "failed to lookup" || has "name resolution" then
    .unreachable
  else .other

/-- A response: its status, and its body as `text()` reads it. -/
structure Response where
  status : Nat
  text : Except TransportError String

structure Request where
  method : String
  url : String
  body : Option Json

inductive HttpCall where
  | send (request : Request)

@[reducible] def httpIface : Iface := ⟨HttpCall, fun _ => Except TransportError Response⟩

abbrev HttpProg := Prog httpIface PubkeyError

def send (request : Request) : HttpProg (Except TransportError Response) :=
  .call (.send request) fun (r : Except TransportError Response) => .ret r

/-! ## Responses -/

/-- White space of Unicode, which `trim` removes. -/
def isWhitespace (c : Char) : Bool :=
  let n := c.toNat
  (9 ≤ n && n ≤ 13) || n == 0x20 || n == 0x85 || n == 0xa0 || n == 0x1680 ||
    (0x2000 ≤ n && n ≤ 0x200a) || n == 0x2028 || n == 0x2029 || n == 0x202f || n == 0x205f ||
    n == 0x3000

def isSuccess (status : Nat) : Bool := 200 ≤ status && status < 300

/-- Synthetic body returned when a signed write is reconciled after replay. -/
def reconciledFromReplayResponse : Json :=
  .obj [("ok", .bool true), ("reconciled_from_replay", .bool true)]

section
variable (parse : String → Option Json)

def parseBody (text : String) : Json :=
  if text.toList.all isWhitespace then .null else (parse text).getD (.str text)

/-- What a response gives: `unwrap_or_default` reads a body that breaks off as an empty one. -/
def answered (reconcile hadConnectionFailure : Bool) (response : Response) :
    Except PubkeyError Json :=
  let text := match response.text with
    | .ok text => text
    | .error _ => ""
  let parsed := parseBody parse text
  if isSuccess response.status then .ok parsed
  else
    let err := PubkeyError.fromResponse response.status parsed
    if reconcile && hadConnectionFailure && err.isReplayRejection then
      .ok reconciledFromReplayResponse
    else .error err

variable (wasm : Bool) (request : Request) (reconcile : Bool)

/-- The attempts that are left. -/
def attempts : (left : Nat) → (hadConnectionFailure : Bool) → (lastError : Option PubkeyError) →
    HttpProg Json
  | 0, _, lastError => .raise (lastError.getD unreachableError)
  | left + 1, hadConnectionFailure, _ => do
    match ← send request with
    | .ok response => .ofExcept (answered parse reconcile hadConnectionFailure response)
    | .error err =>
      match classifyTransport wasm err with
      | .tls => .raise httpsFailedError
      | .timeout => attempts left true (some timeoutError)
      | .unreachable => attempts left true (some unreachableError)
      | .other => .raise { code := "provider_unavailable", message := err.text }

def connectionAttempts : Nat := 4

def pubkeyRequest : HttpProg Json :=
  attempts parse wasm request reconcile connectionAttempts false none

end

end Discovery
