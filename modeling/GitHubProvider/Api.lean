/- GitHub's API, as the three questions a provider asks it. -/

import GitHubProvider.Http
import GitHubProvider.Json.Value
import GitHubProvider.Locator

set_option autoImplicit false
set_option relaxedAutoImplicit false

namespace GitHubProvider.Api

open Http (Answer Get Net Response)
open Interaction (Program)
open Json (SerdeJson Value)
open Locator (GitHubLocator)

def apiRoot : String := "https://api.github.com"

/-- The media type that returns a blob's bytes rather than JSON wrapping them. -/
def rawMediaType : String := "application/vnd.github.raw"

def jsonMediaType : String := "application/vnd.github+json"

structure TreeEntry where
  path : String
  bytes : UInt64
  blobId : String
  deriving DecidableEq, Repr

structure Tree where
  entries : List TreeEntry
  deriving DecidableEq, Repr

structure ApiError where
  code : ProviderCode
  reason : String
  deriving DecidableEq, Repr

/-- Reports whether a refusal was a rate limit rather than a permissions failure. -/
def exhausted (response : Response) : Bool :=
  response.header "x-ratelimit-remaining" == some "0" || (response.header "retry-after").isSome

/-- Judges a response, turning a refusal into a code. The guard of the arm for 403
and 429 may fail, and then 403 has an arm of its own while 429 has none. -/
def judge (response : Response) (authenticated : Bool) : Except ApiError Unit :=
  let status := response.status
  if 200 ≤ status ∧ status ≤ 299 then .ok ()
  else if status = 401 then
    .error ⟨.credentialRejected, "the host rejected the credential"⟩
  else if (status = 403 ∨ status = 429) ∧ exhausted response then
    .error ⟨.limitExceeded, "the host's rate limit is exhausted"⟩
  else if status = 403 then
    .error ⟨.credentialRejected, "the credential does not permit this"⟩
  else if status = 404 ∧ ¬authenticated then
    .error ⟨.credentialRequired, "not found, which without a credential also means not visible"⟩
  else if status = 404 then
    .error ⟨.sourceUnavailable, "the host has no such repository, ref, or path"⟩
  else if 500 ≤ status ∧ status ≤ 599 then
    .error ⟨.sourceUnavailable, "the host did not answer"⟩
  else
    .error ⟨.sourceUnavailable, "the host answered " ++ toString status.toNat⟩

/-- The opening that the three calls share: a request that could not be completed
is a refusal, and a response is judged. -/
def accepted (answer : Answer) (authenticated : Bool) : Except ApiError Response := do
  let response ← answer.mapError fun reason => ApiError.mk .sourceUnavailable reason
  judge response authenticated
  return response

section

variable [SerdeJson]

def bodyJson (response : Response) : Except ApiError Value :=
  (SerdeJson.fromSlice response.body.toList).mapError fun error =>
    ⟨.sourceUnavailable, "the host's answer is not JSON: " ++ error⟩

def namedCommit (answer : Answer) (authenticated : Bool) : Except ApiError String := do
  let response ← accepted answer authenticated
  let document ← bodyJson response
  match (document.strAt "sha").filter fun sha => !sha.isEmpty with
  | some sha => return sha
  | none => .error ⟨.sourceUnavailable, "the host named no commit for that ref"⟩

def treeEntry (entry : Value) : Except ApiError TreeEntry :=
  match entry.strAt "path" with
  | none => .error ⟨.sourceUnavailable, "an entry states no path"⟩
  | some path =>
      match entry.strAt "sha" with
      | none => .error ⟨.sourceUnavailable, "an entry states no blob id"⟩
      | some sha =>
          .ok { path, bytes := ((entry.get "size").bind Value.asU64).getD 0, blobId := sha }

/-- Directories and submodule gitlinks are not files to read. -/
def isBlob (entry : Value) : Bool := entry.strAt "type" == some "blob"

def listing (answer : Answer) (authenticated : Bool) : Except ApiError Tree := do
  let response ← accepted answer authenticated
  let document ← bodyJson response
  if (document.get "truncated").bind Value.asBool = some true then
    .error ⟨.limitExceeded,
      "the host truncated the tree, so this listing is not the whole repository"⟩
  else
    match (document.get "tree").bind Value.asArray with
    | none => .error ⟨.sourceUnavailable, "the host listed no tree"⟩
    | some items =>
        let entries ← (items.filter isBlob).mapM treeEntry
        return { entries }

end

def commitUrl (locator : GitHubLocator) : String :=
  apiRoot ++ "/repos/" ++ locator.owner ++ "/" ++ locator.repository ++ "/commits/" ++
    locator.reference

def treeUrl (locator : GitHubLocator) (commit : String) : String :=
  apiRoot ++ "/repos/" ++ locator.owner ++ "/" ++ locator.repository ++ "/git/trees/" ++ commit ++
    "?recursive=1"

def blobUrl (locator : GitHubLocator) (blobId : String) : String :=
  apiRoot ++ "/repos/" ++ locator.owner ++ "/" ++ locator.repository ++ "/git/blobs/" ++ blobId

def resolveCommit [SerdeJson] (locator : GitHubLocator) (credential : Option String) :
    Net (Except ApiError String) := do
  let answer ← Http.get (commitUrl locator) jsonMediaType credential
  return namedCommit answer credential.isSome

def enumerateTree [SerdeJson] (locator : GitHubLocator) (commit : String)
    (credential : Option String) : Net (Except ApiError Tree) := do
  let answer ← Http.get (treeUrl locator commit) jsonMediaType credential
  return listing answer credential.isSome

def readBlob (locator : GitHubLocator) (blobId : String) (credential : Option String) :
    Net (Except ApiError Bytes) := do
  let answer ← Http.get (blobUrl locator blobId) rawMediaType credential
  return (accepted answer credential.isSome).map Response.body

def commitGet (locator : GitHubLocator) (credential : Option String) : Get :=
  ⟨commitUrl locator, jsonMediaType, credential⟩

def treeGet (locator : GitHubLocator) (commit : String) (credential : Option String) : Get :=
  ⟨treeUrl locator commit, jsonMediaType, credential⟩

def blobGet (locator : GitHubLocator) (blobId : String) (credential : Option String) : Get :=
  ⟨blobUrl locator blobId, rawMediaType, credential⟩

theorem json_ne_raw : jsonMediaType ≠ rawMediaType := by decide

theorem resolveCommit_yields [SerdeJson] {locator : GitHubLocator} {credential : Option String}
    {exchanges : List (Get × Answer)} {result : Except ApiError String} :
    (resolveCommit locator credential).Yields exchanges result ↔
      ∃ answer, exchanges = [(commitGet locator credential, answer)] ∧
        result = namedCommit answer credential.isSome :=
  Program.yields_query_map

theorem enumerateTree_yields [SerdeJson] {locator : GitHubLocator} {commit : String}
    {credential : Option String} {exchanges : List (Get × Answer)}
    {result : Except ApiError Tree} :
    (enumerateTree locator commit credential).Yields exchanges result ↔
      ∃ answer, exchanges = [(treeGet locator commit credential, answer)] ∧
        result = listing answer credential.isSome :=
  Program.yields_query_map

theorem readBlob_yields {locator : GitHubLocator} {blobId : String} {credential : Option String}
    {exchanges : List (Get × Answer)} {result : Except ApiError Bytes} :
    (readBlob locator blobId credential).Yields exchanges result ↔
      ∃ answer, exchanges = [(blobGet locator blobId credential, answer)] ∧
        result = (accepted answer credential.isSome).map Response.body :=
  Program.yields_query_map

end GitHubProvider.Api
