/- What the provider needs from an HTTP client. -/

import GitHubProvider.Interaction.Agreement
import GitHubProvider.Lib

/-!
The `Http` trait has one method. A caller of the trait is a program that asks
for GETs and is answered with a response or with a reason; who answers is an
environment, so any implementation of the trait is one.
-/

set_option autoImplicit false
set_option relaxedAutoImplicit false

namespace GitHubProvider.Http

open Interaction (Program Environment)
open Text (toAsciiLowercase)

/-- A response, reduced to what a decision here depends on. -/
structure Response where
  status : UInt16
  headers : BTreeMap String String
  body : Bytes
  deriving DecidableEq

/-- Adds a header, lower-casing its name. -/
def Response.withHeader (response : Response) (name value : String) : Response :=
  { response with headers := response.headers.insert (toAsciiLowercase name) value }

def Response.header (response : Response) (name : String) : Option String :=
  response.headers.lookup (toAsciiLowercase name)

theorem Response.header_withHeader (response : Response) (name name' value : String) :
    (response.withHeader name value).header name' =
      if toAsciiLowercase name' = toAsciiLowercase name then some value
      else response.header name' := by
  unfold Response.header Response.withHeader
  split
  · rename_i same
    rw [same]
    exact AList.lookup_insert _
  · rename_i other
    exact AList.lookup_insert_ne other

structure Get where
  url : String
  accept : String
  credential : Option String
  deriving DecidableEq

/-- A response the server sent, or the reason the request could not be completed. -/
abbrev Answer := Except String Response

/-- A computation given an implementation of the `Http` trait. -/
abbrev Net (α : Type) := Program Get Answer α

/-- An implementation of the `Http` trait, with whatever state it keeps. -/
abbrev Host (W : Type) := Environment W Get Answer

def get (url accept : String) (credential : Option String) : Net Answer :=
  .query ⟨url, accept, credential⟩

end GitHubProvider.Http
