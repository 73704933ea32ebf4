/- The provider executable: the loop over request lines, and what it writes. -/

import GitHubProvider.Client
import GitHubProvider.Text.Utf8

/-!
Lines come as `BufRead::lines` gives them: a text, or nothing where the stream
could not be read. The output is all that is written; a caller that stops reading,
which ends the process too, is considered apart from this.
-/

set_option autoImplicit false
set_option relaxedAutoImplicit false

namespace GitHubProvider.Main

open Client (Arrival Sending Ureq UreqClient)
open Http (Host Net)
open Interaction (Environment Program)
open Json (SerdeJson)
open Serve (Session Sha256)

/-- The credential, from the value of `NOSTDB_GITHUB_TOKEN` if it has one. -/
def credential (token : Option String) : Option String := token.filter fun value => !value.isEmpty

structure Exit where
  output : List UInt8
  code : UInt8

def frame (line : String) (content : Bytes) : List UInt8 := Text.encode line ++ 10 :: content.toList

section

variable [SerdeJson] [Sha256]

/-- The loop of `main`. -/
def answer (credential : Option String) : Session → List (Option String) → Net Exit
  | _, [] => return ⟨[], 0⟩
  | _, none :: _ => return ⟨[], 9⟩
  | session, some line :: lines => do
      let (outcome, session) ← session.handle line credential
      match outcome with
      | .done => return ⟨[], 0⟩
      | .reply line content => do
          let rest ← answer credential session lines
          return { rest with output := frame line content ++ rest.output }

/-- `main`, for any implementation of the `Http` trait. -/
def main (token : Option String) (lines : List (Option String)) : Net Exit :=
  answer (credential token) .new lines

variable [Ureq]

def mainOverClient (token : Option String) (lines : List (Option String)) :
    Program Sending Arrival Exit :=
  (main token lines).interpret UreqClient.new.get

/-- The `Http` trait as the client implements it, before a host on the wire. -/
def clientHost {W : Type} (wire : Environment W Sending Arrival) : Host W :=
  Program.behind UreqClient.new.sending
    (fun arrival => UreqClient.received (Ureq.call UreqClient.new.agent arrival)) wire

theorem mainOverClient_run {W : Type} (wire : Environment W Sending Arrival) (world : W)
    (token : Option String) (lines : List (Option String)) :
    ((mainOverClient token lines).run wire world).result =
      ((main token lines).run (clientHost wire) world).result :=
  Program.run_interpret _ _ wire world _

end

end GitHubProvider.Main
