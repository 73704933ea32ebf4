/- Which requests are refused for what they carry as a credential. -/

import GitHubProvider.Serve.Calls

set_option autoImplicit false
set_option relaxedAutoImplicit false

namespace GitHubProvider.Serve

open Api (commitGet namedCommit)
open Http (Answer)
open Json (SerdeJson Value)
open Locator (GitHubLocator LocatorError)

section

variable [SerdeJson]

/-- The line is a resolve request of this version, and what it carries as a credential is
something and not a name: an object with the one member `ref`, a string. -/
structure CarriesNoName (line : String) (request : Value) : Prop where
  asked : admission true line = .ok (request, some "resolve")
  carried : ∃ credential, request.get "credential" = some credential ∧ credential ≠ .null ∧
    ∀ name, credential ≠ .object [("ref", .string name)]

/-- However the host would answer, the line is refused as an invalid request, the host is
asked nothing, and the session stays as it is. -/
def RefusedBeforeUse [Sha256] (session : Session) (line : String) (credential : Option String) :
    Prop :=
  ∀ exchanges outcome after,
    (session.handle line credential).Yields exchanges (outcome, after) →
      exchanges = [] ∧ after = session ∧ ∃ message, outcome = refuse .requestInvalid message

/-- There was no handshake, or the request names no locator, or its credential is an object
without a member `ref`. -/
def Stopped (session : Session) (request : Value) : Prop :=
  session.handshaken = false ∨ request.strAt "locator" = none ∨
    ∃ members, request.get "credential" = some (.object members) ∧ members.lookup "ref" = none

omit [SerdeJson] in
theorem carriesSecret_iff {request : Value} : Session.carriesSecret request = true ↔
    ∃ members, request.get "credential" = some (.object members) ∧
      members.lookup "ref" = none := by
  unfold Session.carriesSecret
  cases request.get "credential" with
  | none => simp
  | some credential => cases credential <;> simp [Value.asObject]

variable {session : Session} {line : String} {request : Value} {credential : Option String}

variable (credential) in
private theorem served [Sha256] {text : String}
    (admitted : admission session.handshaken line = .ok (request, some "resolve"))
    (named : request.strAt "locator" = some text)
    (clean : Session.carriesSecret request = false) :
    ∃ exchanges code message,
      (session.handle line credential).Yields exchanges (refuse code message, session) ∧
        (exchanges ≠ [] ∨ code = .locatorInvalid) := by
  cases parsed : GitHubLocator.parse text with
  | error error =>
      have unread : session.ResolveCase request credential []
          (refuse .locatorInvalid (LocatorError.toString error)) session :=
        .unread named clean parsed
      exact ⟨[], _, _, Session.handle_yields_iff.mpr (.resolve admitted unread), .inr rfl⟩
  | ok locator =>
      let answer : Answer := .error ""
      have unreached : namedCommit answer credential.isSome =
          .error ⟨.sourceUnavailable, ""⟩ := rfl
      have failed : session.ResolveCase request credential [(commitGet locator credential, answer)]
          (refuse .sourceUnavailable "") session :=
        .failed named clean parsed unreached
      exact ⟨_, _, _, Session.handle_yields_iff.mpr (.resolve admitted failed),
        .inl (List.cons_ne_nil _ _)⟩

private theorem stopped_refused [Sha256]
    (asked : admission true line = .ok (request, some "resolve"))
    (stopped : Stopped session request) : RefusedBeforeUse session line credential := by
  intro exchanges outcome after yields
  cases ready : session.handshaken with
  | false =>
      have refused := admission_unready asked (by decide)
      simp only [Session.handle, ready, refused] at yields
      obtain ⟨silent, ends⟩ := Interaction.Program.yields_done.mp yields
      obtain ⟨rfl, rfl⟩ := Prod.mk.inj ends
      exact ⟨silent, rfl, _, rfl⟩
  | true =>
      simp only [Session.handle, ready, asked] at yields
      have cases := Session.resolve_yields_iff.mp yields
      have caught {text : String} (named : request.strAt "locator" = some text)
          (clean : Session.carriesSecret request = false) : False := by
        rcases stopped with unready | unnamed | secret
        · simp [ready] at unready
        · simp [named] at unnamed
        · simp [carriesSecret_iff.mpr secret] at clean
      cases cases with
      | unnamed | secret => exact ⟨rfl, rfl, _, rfl⟩
      | unread named clean | failed named clean | resolved named clean =>
          exact (caught named clean).elim

/-- A request that carries something other than a name is refused before it is used exactly
when one of the checks stops it. -/
theorem refused_before_use_iff [Sha256] (serde : Faithful)
    (carries : CarriesNoName line request) :
    RefusedBeforeUse session line credential ↔ Stopped session request := by
  constructor
  · intro refused
    by_contra passed
    simp only [Stopped, not_or, Bool.not_eq_false] at passed
    obtain ⟨ready, located, unsecret⟩ := passed
    obtain ⟨text, named⟩ := Option.ne_none_iff_exists'.mp located
    have clean : Session.carriesSecret request = false := by
      rw [← Bool.not_eq_true, carriesSecret_iff]
      exact unsecret
    have admitted : admission session.handshaken line = .ok (request, some "resolve") := by
      rw [ready]
      exact carries.asked
    obtain ⟨exchanges, code, message, yields, further⟩ := served credential admitted named clean
    obtain ⟨silent, -, message', same⟩ := refused _ _ _ yields
    obtain ⟨codes, -⟩ := serde.replyWith_inj.mp same
    rcases further with asked | rfl
    · exact asked silent
    · cases codes
  · exact stopped_refused carries.asked

end

section

attribute [local instance] Json.compact sha2

def carrying (credential : Value) : Value := .object [
  ("credential", credential),
  ("locator", .string "github://o/r/a?ref=m"),
  ("provider_protocol_version", version),
  ("request", .string "resolve")]

private theorem carrying_admitted {credential : Value} (plain : Json.Plain credential) :
    admission true (Json.compact.toString (carrying credential)) =
      .ok (carrying credential, some "resolve") := by
  have written : Json.Plain (carrying credential) := by
    refine plain_object ?_ ?_
    · simp only [List.map_cons, List.map_nil]
      decide +kernel
    · simp [Json.PlainMembers, Json.Plain, Json.Number.Plain, version, plain]
  exact admission_written written rfl (.inr rfl)

def bareToken : Value := .string "ghp_x"

def tokenOnly : Value := .object [("token", .string "ghp_x")]

theorem refused_before_use_token :
    RefusedBeforeUse opening.after (Json.compact.toString (carrying tokenOnly)) none ↔
      Stopped opening.after (carrying tokenOnly) := by
  have plain : Json.Plain tokenOnly := by
    simp [tokenOnly, Json.Plain, Json.PlainMembers]
  refine refused_before_use_iff faithful_compact ⟨carrying_admitted plain, tokenOnly, rfl, ?_, ?_⟩
  · simp [tokenOnly]
  · simp [tokenOnly]

/-- A bare token is left aside: the request is served, and the session holds its commit. -/
theorem bare_token_served :
    CarriesNoName (Json.compact.toString (carrying bareToken)) (carrying bareToken) ∧
      (opening.after.handle (Json.compact.toString (carrying bareToken)) none).Yields
        [(commitGet parent none, found commitBody)]
        (reply (.resolve "c" parent.toString), opening.after.hold "c" parent) ∧
      ¬RefusedBeforeUse opening.after (Json.compact.toString (carrying bareToken)) none := by
  have plain : Json.Plain bareToken := by
    simp [bareToken, Json.Plain]
  have admitted := carrying_admitted plain
  have parsed : GitHubLocator.parse "github://o/r/a?ref=m" = .ok parent := by decide
  have named : (carrying bareToken).strAt "locator" = some "github://o/r/a?ref=m" := rfl
  have resolved : opening.after.ResolveCase (carrying bareToken) none
      [(commitGet parent none, found commitBody)] (reply (.resolve "c" parent.toString))
      (opening.after.hold "c" parent) :=
    .resolved named rfl parsed names_commit
  have ready : opening.after.handshaken = true := rfl
  have handled : opening.after.HandleCase (Json.compact.toString (carrying bareToken)) none
      [(commitGet parent none, found commitBody)] (reply (.resolve "c" parent.toString))
      (opening.after.hold "c" parent) := by
    refine .resolve ?_ resolved
    rw [ready]
    exact admitted
  have served := Session.handle_yields_iff.mpr handled
  refine ⟨⟨admitted, bareToken, rfl, ?_, ?_⟩, served, fun refused => ?_⟩
  · simp [bareToken]
  · simp [bareToken]
  · obtain ⟨silent, -⟩ := refused _ _ _ served
    cases silent

end

end GitHubProvider.Serve
