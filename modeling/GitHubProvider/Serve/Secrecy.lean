/- The value of the credential makes no difference that can be observed. -/

import GitHubProvider.Serve.Calls

set_option autoImplicit false
set_option relaxedAutoImplicit false

namespace GitHubProvider.Serve

open Http (Answer Get Host)
open Interaction (Agree Machine SameTurn)
open Interaction.Program (Alike)
open Json (SerdeJson Value)
open Locator (GitHubLocator)

/-- What of a GET is not secret, with a credential put in its place. -/
def withCredential (credential : String) (request : String × String) : Get :=
  ⟨request.1, request.2, some credential⟩

namespace Session

section

variable [SerdeJson] {first second : String}

omit [SerdeJson] in
private theorem get_alike (url accept : String) {α : Type} {f : Answer → α} :
    Alike (withCredential first) (withCredential second)
      (do let answer ← Http.get url accept (some first); return f answer)
      (do let answer ← Http.get url accept (some second); return f answer) :=
  .ask (url, accept) fun answer => .done (f answer)

private theorem tree_alike (session : Session) (locator : GitHubLocator) (snapshot : String) :
    Alike (withCredential first) (withCredential second)
      (session.tree locator snapshot (some first))
      (session.tree locator snapshot (some second)) := by
  unfold tree
  split
  · exact .done _
  · refine Alike.bind (get_alike _ _) fun listed => ?_
    cases listed <;> exact .done _

private theorem resolve_alike (session : Session) (request : Value) :
    Alike (withCredential first) (withCredential second)
      (session.resolve request (some first)) (session.resolve request (some second)) := by
  unfold resolve
  split
  · exact .done _
  split
  · exact .done _
  split
  · exact .done _
  · refine Alike.bind (get_alike _ _) fun commit => ?_
    cases commit <;> exact .done _

private theorem enumerate_alike (session : Session) (request : Value) :
    Alike (withCredential first) (withCredential second)
      (session.enumerate request (some first)) (session.enumerate request (some second)) := by
  unfold enumerate
  split
  · exact .done _
  · refine Alike.bind (session.tree_alike _ _) fun (listed, after) => ?_
    cases listed <;> exact .done _

private theorem read_alike (session : Session) (request : Value) :
    Alike (withCredential first) (withCredential second)
      (session.read request (some first)) (session.read request (some second)) := by
  unfold read
  split
  · exact .done _
  split
  · exact .done _
  refine Alike.bind (session.tree_alike _ _) fun (listed, after) => ?_
  cases listed with
  | error error => exact .done _
  | ok tree =>
      dsimp only
      split
      · exact .done _
      · refine Alike.bind (get_alike _ _) fun content => ?_
        cases content <;> exact .done _

private theorem materialize_alike [Sha256] (session : Session) (request : Value) :
    Alike (withCredential first) (withCredential second)
      (session.materialize request (some first)) (session.materialize request (some second)) := by
  unfold materialize
  split
  · exact .done _
  split
  · exact .done _
  refine Alike.bind (get_alike _ _) fun listed => ?_
  cases listed with
  | error error => exact .done _
  | ok tree =>
      dsimp only
      split
      · exact .done _
      · refine Alike.bind (get_alike _ _) fun content => ?_
        cases content <;> exact .done _

theorem handle_alike [Sha256] (session : Session) (line : String) :
    Alike (withCredential first) (withCredential second)
      (session.handle line (some first)) (session.handle line (some second)) := by
  unfold handle
  split
  · exact .done _
  split
  · exact .done _
  · exact session.resolve_alike _
  · exact session.enumerate_alike _
  · exact session.read_alike _
  · exact session.materialize_alike _
  · exact .done _
  · exact .done _

def servingWith [Sha256] (credential : Option String) :
    Machine Session String Outcome Get Answer :=
  fun session line => session.handle line credential

/-- Two runs that differ in the credential, before hosts that give the same answers to
the same requests, have the same outcomes and states and ask for the same URLs. -/
theorem credential_noninterference [Sha256] {W W' : Type} {host : Host W} {host' : Host W'}
    {world : W} {world' : W'}
    (agree : Agree (withCredential first) (withCredential second) host host' world world')
    (lines : List String) :
    List.Forall₂ (SameTurn (withCredential first) (withCredential second))
      ((servingWith (some first)).turns host world .new lines)
      ((servingWith (some second)).turns host' world' .new lines) := by
  have alike : ∀ session line, Alike (withCredential first) (withCredential second)
      (servingWith (some first) session line) (servingWith (some second) session line) :=
    fun session line => session.handle_alike line
  exact Machine.turns_alike alike agree .new lines

end

section

attribute [local instance] Json.compact sha2

theorem credential_noninterference_recorded :
    List.Forall₂ (SameTurn (withCredential "one") (withCredential "other"))
      ((servingWith (some "one")).turns recorded [found commitBody, found treeBody] .new
        [Call.handshake.line, (Call.resolve "github://o/r/a?ref=m").line,
          (Call.enumerate "c").line])
      ((servingWith (some "other")).turns recorded [found commitBody, found treeBody] .new
        [Call.handshake.line, (Call.resolve "github://o/r/a?ref=m").line,
          (Call.enumerate "c").line]) := by
  have agree (answers : List Answer) : Agree (withCredential "one") (withCredential "other")
      recorded recorded answers answers := by
    intro questions
    induction questions generalizing answers with
    | nil => rfl
    | cons question questions ih =>
        have rest := ih answers.tail
        exact congrArg (answers.headD (.error "no answer was recorded") :: ·) rest
  exact credential_noninterference (agree _) _

end

end Session

end GitHubProvider.Serve
