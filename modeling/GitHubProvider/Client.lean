/- The one implementation of the `Http` trait that reaches GitHub. -/

import GitHubProvider.Serve.Requests

/-!
A GET of the trait becomes one request on the wire, and what the host sends back
becomes the answer. Between the host and this client stands `ureq`: `Ureq` is
what it makes of the host's final answer, and `Documented` what is relied on of it.
-/

set_option autoImplicit false
set_option relaxedAutoImplicit false

namespace GitHubProvider.Client

open Http (Answer Get Net)
open Interaction (Machine Program fixed)
open Json (SerdeJson)
open Serve (Outcome Request Session Sha256)
open Text (toAsciiLowercase)

def apiVersion : String := "2022-11-28"

def timeoutSeconds : Nat := 30

def maxResponseBytes : Nat := 64 * 1024 * 1024

/-- A header as it arrives: its value may be any bytes. -/
structure Header where
  name : String
  value : List UInt8

/-- `HeaderValue::to_str`: a text when every byte is a visible ASCII character,
a space or a tab. -/
def Header.text (header : Header) : Option String :=
  if header.value.all fun byte => (32 ≤ byte && byte < 127) || byte == 9 then
    some (String.ofList (header.value.map fun byte => Char.ofNat byte.toNat))
  else none

/-- A body as its reader delivers it: the bytes that arrive, and whether reading then
fails instead of ending. -/
structure Stream where
  bytes : List UInt8
  fails : Bool

private theorem length_take_lt (bytes : List UInt8) :
    (bytes.take maxResponseBytes).length < 2 ^ 63 := by
  have capped : (bytes.take maxResponseBytes).length ≤ maxResponseBytes := by simp
  have small : maxResponseBytes < 2 ^ 63 := by decide
  omega

/-- `take(MAX_RESPONSE_BYTES)` and `read_to_end`. At the limit reading ends without
looking further, so neither more bytes nor a failure behind it is seen. -/
def Stream.readToEnd (body : Stream) : Option Bytes :=
  if body.fails ∧ body.bytes.length < maxResponseBytes then none
  else some ⟨body.bytes.take maxResponseBytes, length_take_lt _⟩

/-- The final answer to a request, redirects followed. -/
structure Reception where
  status : UInt16
  headers : List Header
  body : Stream

structure Sending where
  url : String
  headers : List (String × String)
  deriving DecidableEq

/-- What arrives for a request: nothing when it could not be completed. -/
abbrev Arrival := Option Reception

structure Config where
  timeoutGlobal : Option Nat
  httpStatusAsError : Bool

/-- `Agent::config_builder`: the documented defaults. -/
def configBuilder : Config := ⟨none, true⟩

/-- `ureq::Error`: the variant this client tells from the rest, and the rest. -/
inductive UreqError where
  | statusCode (status : UInt16)
  | other
  deriving DecidableEq

/-- `delivers` is whether the final answer can be delivered at all: it is no redirect that cannot
be followed, and its head is within the limits. `call` is what is handed back of what arrived. -/
class Ureq where
  delivers : Config → Reception → Bool
  call : Config → Arrival → Except UreqError Reception

def Reception.IsRefusal (reception : Reception) : Prop :=
  400 ≤ reception.status ∧ reception.status ≤ 599

instance (reception : Reception) : Decidable reception.IsRefusal :=
  inferInstanceAs (Decidable (_ ∧ _))

/-- `call` fails when nothing was received or it cannot be delivered. Otherwise it hands back what
was received, but under `http_status_as_error` a 4xx or a 5xx is an error with its status. -/
structure Documented [Ureq] : Prop where
  unreached (config : Config) : Ureq.call config none = .error .other
  undelivered (config : Config) {reception : Reception} :
    Ureq.delivers config reception = false → Ureq.call config (some reception) = .error .other
  refusal (config : Config) {reception : Reception} :
    Ureq.delivers config reception = true → config.httpStatusAsError = true →
      reception.IsRefusal →
        Ureq.call config (some reception) = .error (.statusCode reception.status)
  response (config : Config) {reception : Reception} :
    Ureq.delivers config reception = true →
      ¬ (config.httpStatusAsError = true ∧ reception.IsRefusal) →
        Ureq.call config (some reception) = .ok reception

/-- The headers that are texts, under lowered names. -/
def textHeaders (headers : List Header) : BTreeMap String String :=
  .collect (headers.filterMap fun header =>
    header.text.map fun text => (toAsciiLowercase header.name, text))

structure UreqClient where
  agent : Config
  userAgent : String

namespace UreqClient

def new : UreqClient where
  agent := { configBuilder with timeoutGlobal := some timeoutSeconds }
  userAgent := packageName ++ "/" ++ packageVersion

def sending (client : UreqClient) (get : Get) : Sending where
  url := get.url
  headers :=
    [("accept", get.accept), ("user-agent", client.userAgent),
        ("x-github-api-version", apiVersion)] ++
      get.credential.toList.map fun secret => ("authorization", "Bearer " ++ secret)

/-- What `get` makes of the result of `call`. -/
def received : Except UreqError Reception → Answer
  | .error (.statusCode _) => .error "the host answered with a status this client could not read"
  | .error .other => .error "the host could not be reached"
  | .ok reception =>
      match reception.body.readToEnd with
      | none => .error "the host's answer could not be read"
      | some body => .ok ⟨reception.status, textHeaders reception.headers, body⟩

/-- `<UreqClient as Http>::get`. -/
def get [Ureq] (client : UreqClient) (request : Get) : Program Sending Arrival Answer := do
  let arrival ← .query (client.sending request)
  return received (Ureq.call client.agent arrival)

end UreqClient

/-- A computation run over the client, when the one answer arrives for every request. -/
def runOver [Ureq] {α : Type} (reception : Reception) (program : Net α) : α :=
  ((program.interpret UreqClient.new.get).run (fixed fun _ => some reception) ()).result

def serving [SerdeJson] [Sha256] [Ureq] : Machine Session Request Outcome Sending Arrival :=
  Session.serving.interpret UreqClient.new.get

end GitHubProvider.Client
