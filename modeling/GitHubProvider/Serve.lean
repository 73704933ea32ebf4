/- The request loop: a session, and the answer to one request line. -/

import GitHubProvider.Api

set_option autoImplicit false
set_option relaxedAutoImplicit false

namespace GitHubProvider.Serve

open Api (ApiError Tree TreeEntry)
open Http (Net)
open Json (SerdeJson Value)
open Locator (GitHubLocator)
open Text (trimText)

/-- The SHA-256 of the `sha2` crate: the bytes it finalizes to. -/
class Sha256 where
  finalize : List UInt8 → List UInt8

/-- A SHA-256 digest in the `algorithm:hex` form the contracts use. -/
def digest [Sha256] (bytes : List UInt8) : String :=
  "sha256:" ++ .ofList (Text.lowerHex (Sha256.finalize bytes))

inductive Reply where
  | handshake
  | resolve (snapshot canonicalLocator : String)
  | enumerate (entries : List TreeEntry)
  | read (bytes : UInt64)
  | materialize (bytes : UInt64) (contentDigest : String)
  | error (code : ProviderCode) (message : String)
  deriving DecidableEq

def version : Value := .number (.posInt providerProtocolVersion.toUInt64)

def entryDocument (entry : TreeEntry) : Value :=
  .object [("bytes", .number (.posInt entry.bytes)), ("content_id", .string entry.blobId),
    ("path", .string entry.path)]

/-- The document of a reply; members stand in the order of their keys. -/
def Reply.document : Reply → Value
  | .handshake => .object [
      ("provider", .string providerName),
      ("provider_protocol_version", version),
      ("provider_version", .string packageVersion),
      ("reply", .string "handshake"),
      ("roles", .array [.string "source", .string "graph_store"])]
  | .resolve snapshot canonicalLocator => .object [
      ("cached", .bool false),
      ("canonical_locator", .string canonicalLocator),
      ("provider_protocol_version", version),
      ("reply", .string "resolve"),
      ("snapshot", .string snapshot)]
  | .enumerate entries => .object [
      ("entries", .array (entries.map entryDocument)),
      ("provider_protocol_version", version),
      ("reply", .string "enumerate")]
  | .read bytes => .object [
      ("bytes", .number (.posInt bytes)),
      ("provider_protocol_version", version),
      ("reply", .string "read")]
  | .materialize bytes contentDigest => .object [
      ("bytes", .number (.posInt bytes)),
      ("content_digest", .string contentDigest),
      ("provider_protocol_version", version),
      ("reply", .string "materialize")]
  | .error code message => .object [
      ("code", .string code.asStr),
      ("message", .string message),
      ("provider_protocol_version", version),
      ("reply", .string "error")]

inductive Outcome where
  | reply (line : String) (content : Bytes)
  | done
  deriving DecidableEq

/-- One session's state: the locator each snapshot was resolved from, and the
trees already listed, by snapshot. -/
structure Session where
  resolved : BTreeMap String GitHubLocator
  trees : BTreeMap String Tree
  handshaken : Bool

section

variable [SerdeJson]

def replyWith (answer : Reply) (content : Bytes) : Outcome :=
  .reply (SerdeJson.toString answer.document) content

def reply (answer : Reply) : Outcome := replyWith answer .empty

def refuse (code : ProviderCode) (message : String) : Outcome := reply (.error code message)

/-- What every request is checked for before its kind is looked at. An admitted
request comes with the kind it names, if it names one. -/
def admission (handshaken : Bool) (line : String) : Except Outcome (Value × Option String) :=
  let line := trimText line
  if line.isEmpty then .error .done
  else match SerdeJson.fromStr line with
    | none => .error (refuse .requestInvalid "the request is not JSON")
    | some request =>
        match (request.get "provider_protocol_version").bind Value.asU64 with
        | none => .error (refuse .requestInvalid "the request states no protocol version")
        | some found =>
            if found = providerProtocolVersion.toUInt64 then
              let kind := request.strAt "request"
              if kind ≠ some "handshake" ∧ ¬handshaken then
                .error (refuse .requestInvalid "no handshake has been exchanged")
              else .ok (request, kind)
            else .error (refuse .protocolUnsupported
              ("this provider speaks " ++ toString providerProtocolVersion.toNat ++
                " and the request states " ++ toString found.toNat))

namespace Session

def new : Session := ⟨∅, ∅, false⟩

def snapshot (session : Session) (request : Value) : Option (String × GitHubLocator) := do
  let snapshot ← request.strAt "snapshot"
  let locator ← session.resolved.lookup snapshot
  return (snapshot, locator)

/-- The tree for a snapshot, listing it once. A failure is not cached. -/
def tree (session : Session) (locator : GitHubLocator) (snapshot : String)
    (credential : Option String) : Net (Except ApiError Tree × Session) :=
  match session.trees.lookup snapshot with
  | some held => return (.ok held, session)
  | none => do
      match ← Api.enumerateTree locator snapshot credential with
      | .error error => return (.error error, session)
      | .ok tree =>
          return (.ok tree, { session with trees := session.trees.insert snapshot tree })

/-- A credential that is an object must name one under `ref`; a credential that
is anything but an object is not looked at. -/
def carriesSecret (request : Value) : Bool :=
  ((request.get "credential").bind Value.asObject).any fun members =>
    (members.lookup "ref").isNone

def resolve (session : Session) (request : Value) (credential : Option String) :
    Net (Outcome × Session) :=
  match request.strAt "locator" with
  | none => return (refuse .requestInvalid "the request names no locator", session)
  | some text =>
      if carriesSecret request then
        return (refuse .requestInvalid
          "a credential travels as a name, and this request carries something else", session)
      else match GitHubLocator.parse text with
        | .error error => return (refuse .locatorInvalid error.toString, session)
        | .ok locator => do
            match ← Api.resolveCommit locator credential with
            | .error error => return (refuse error.code error.reason, session)
            | .ok commit =>
                return (reply (.resolve commit locator.toString),
                  { session with resolved := session.resolved.insert commit locator })

def enumerate (session : Session) (request : Value) (credential : Option String) :
    Net (Outcome × Session) :=
  match session.snapshot request with
  | none =>
      return (refuse .requestInvalid "that snapshot was not resolved in this session", session)
  | some (snapshot, locator) => do
      let (listed, session) ← session.tree locator snapshot credential
      match listed with
      | .error error => return (refuse error.code error.reason, session)
      | .ok tree => return (reply (.enumerate tree.entries), session)

def read (session : Session) (request : Value) (credential : Option String) :
    Net (Outcome × Session) :=
  match session.snapshot request with
  | none =>
      return (refuse .requestInvalid "that snapshot was not resolved in this session", session)
  | some (snapshot, locator) =>
      match request.strAt "path" with
      | none => return (refuse .requestInvalid "the request names no path", session)
      | some path => do
          let (listed, session) ← session.tree locator snapshot credential
          match listed with
          | .error error => return (refuse error.code error.reason, session)
          | .ok tree =>
              match tree.entries.find? fun entry => entry.path = path with
              | none =>
                  return (refuse .sourceUnavailable "that snapshot contains no such path", session)
              | some entry =>
                  match ← Api.readBlob locator entry.blobId credential with
                  | .error error => return (refuse error.code error.reason, session)
                  | .ok content => return (replyWith (.read content.len) content, session)

def materialize [Sha256] (session : Session) (request : Value) (credential : Option String) :
    Net (Outcome × Session) :=
  match session.snapshot request with
  | none =>
      return (refuse .requestInvalid "that snapshot was not resolved in this session", session)
  | some (snapshot, locator) =>
      if locator.isRoot then
        return (refuse .locatorInvalid
          "a graph locator names a file, and this one names a repository root", session)
      else do
        match ← Api.enumerateTree locator snapshot credential with
        | .error error => return (refuse error.code error.reason, session)
        | .ok tree =>
            match tree.entries.find? fun entry => entry.path = locator.path with
            | none =>
                return (refuse .sourceUnavailable
                  "that snapshot contains no such artifact", session)
            | some entry =>
                match ← Api.readBlob locator entry.blobId credential with
                | .error error => return (refuse error.code error.reason, session)
                | .ok content =>
                    return (replyWith (.materialize content.len (digest content.toList)) content,
                      session)

def handle [Sha256] (session : Session) (line : String) (credential : Option String) :
    Net (Outcome × Session) :=
  match admission session.handshaken line with
  | .error outcome => return (outcome, session)
  | .ok (request, kind) =>
      match kind with
      | some "handshake" => return (reply .handshake, { session with handshaken := true })
      | some "resolve" => session.resolve request credential
      | some "enumerate" => session.enumerate request credential
      | some "read" => session.read request credential
      | some "materialize" => session.materialize request credential
      | some other =>
          return (refuse .requestInvalid
            ("`" ++ other ++ "` is not a request this version defines"), session)
      | none => return (refuse .requestInvalid "the request names no kind", session)

end Session

end

end GitHubProvider.Serve
