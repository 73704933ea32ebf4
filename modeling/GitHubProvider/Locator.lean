/- The `github://` locator: two spellings parsed, one rendered. -/

import GitHubProvider.Text.Chars

set_option autoImplicit false
set_option relaxedAutoImplicit false

namespace GitHubProvider.Locator

open Text (splitOnce splitn upTo trim isWhitespace toAsciiLowercase)

def scheme : String := "github://"

def browserPrefix : String := "https://github.com/"

structure GitHubLocator where
  owner : String
  repository : String
  path : String
  reference : String
  deriving DecidableEq, Repr

inductive LocatorError where
  | notGitHub
  | noOwner
  | noRepository
  | noReference
  | emptyReference
  | credentialPresent
  deriving DecidableEq, Repr

def LocatorError.toString : LocatorError → String
  | .notGitHub => "not a github:// locator or a GitHub URL"
  | .noOwner => "no owner was named"
  | .noRepository => "no repository was named"
  | .noReference => "no ref was stated, and a default branch can change so one is never assumed"
  | .emptyReference => "the ref is empty"
  | .credentialPresent => "a credential must never appear in a locator"

namespace GitHubLocator

def isRoot (locator : GitHubLocator) : Bool := locator.path.isEmpty

/-- Renders the canonical form. -/
def toString (locator : GitHubLocator) : String :=
  scheme ++ locator.owner ++ "/" ++ locator.repository ++ "/" ++ locator.path ++ "?ref=" ++
    locator.reference

/-- A path is never searched for a credential here, unlike the other parts. -/
def build (owner repository path reference : List Char) : Except LocatorError GitHubLocator :=
  if [owner, repository, reference].any fun part => part.contains '@' then
    .error .credentialPresent
  else
    .ok {
      owner := toAsciiLowercase (.ofList owner)
      repository := toAsciiLowercase (.ofList repository)
      path := .ofList (path.rdropWhile (· == '/'))
      reference := .ofList reference }

/-- Parses the tail of a `https://github.com/...` URL. -/
def fromBrowser (rest : List Char) : Except LocatorError GitHubLocator :=
  let segments := (upTo '?' (upTo '#' rest)).splitOn '/'
  let owner := segments.getD 0 []
  let repository := segments.getD 1 []
  if owner.isEmpty then .error .noOwner
  else if repository.isEmpty then .error .noRepository
  else match segments[2]? with
    | none => .error .noReference
    | some kind =>
        if kind = "tree".toList ∨ kind = "blob".toList then
          let reference := segments.getD 3 []
          if reference.isEmpty then .error .emptyReference
          else build owner repository (['/'].intercalate (segments.drop 4)) reference
        else .error .noReference

/-- Parses the tail of a `github://...` locator. -/
def fromCanonical (rest : List Char) : Except LocatorError GitHubLocator :=
  if rest.contains '@' then .error .credentialPresent
  else match splitOnce '?' rest with
    | none => .error .noReference
    | some (pathPart, query) =>
        match query.dropPrefix? "ref=".toList with
        | none => .error .noReference
        | some reference =>
            if reference.isEmpty then .error .emptyReference
            else
              let segments := splitn '/' 3 pathPart
              let owner := segments.getD 0 []
              let repository := segments.getD 1 []
              let path := segments.getD 2 []
              if owner.isEmpty then .error .noOwner
              else if repository.isEmpty then .error .noRepository
              else build owner repository path reference

/-- Parses a locator in canonical or browser form, canonicalizing it. -/
def parse (text : String) : Except LocatorError GitHubLocator :=
  let text := trim isWhitespace text.toList
  match text.dropPrefix? browserPrefix.toList with
  | some rest => fromBrowser rest
  | none =>
      match text.dropPrefix? scheme.toList with
      | some rest => fromCanonical rest
      | none => .error .notGitHub

end GitHubLocator

example : (GitHubLocator.parse "https://github.com/Example/Payments/tree/main/src").map
    GitHubLocator.toString = .ok "github://example/payments/src?ref=main" := by decide

end GitHubProvider.Locator
