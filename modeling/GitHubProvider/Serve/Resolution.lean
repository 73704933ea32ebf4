/- What a resolve reply states, and what becomes of it in a later resolve. -/

import GitHubProvider.Locator.Canonical
import GitHubProvider.Serve.Replies
import GitHubProvider.Serve.Requests

set_option autoImplicit false
set_option relaxedAutoImplicit false

namespace GitHubProvider.Serve

open Json (SerdeJson Value)
open Locator (GitHubLocator)
open Locator.GitHubLocator (SurvivesRendering parse_toString_iff_survivesRendering)

namespace Session

section

variable [SerdeJson]

theorem resolve_reply (serde : Faithful) {session after : Session} {request : Value}
    {credential : Option String} {exchanges : Exchanges} {commit canonical : String}
    (h : session.ResolveCase request credential exchanges (reply (.resolve commit canonical))
      after) :
    ∃ text locator answer, request.strAt "locator" = some text ∧
      carriesSecret request = false ∧ GitHubLocator.parse text = .ok locator ∧
      exchanges = [(Api.commitGet locator credential, answer)] ∧
      Api.namedCommit answer credential.isSome = .ok commit ∧
      canonical = locator.toString ∧ after = session.hold commit locator := by
  generalize houtcome : reply (.resolve commit canonical) = outcome at h
  cases h with
  | unnamed | secret | unread | failed =>
      exact absurd (serde.replyWith_inj.mp houtcome).1 (by simp)
  | resolved named clean parsed resolved =>
      obtain ⟨⟨⟩, -⟩ := serde.replyWith_inj.mp houtcome
      exact ⟨_, _, _, named, clean, parsed, rfl, resolved, rfl, rfl⟩

theorem resolve_congr (session : Session) {request later : Value} {text text' : String}
    (credential : Option String) (named : request.strAt "locator" = some text)
    (named' : later.strAt "locator" = some text')
    (secrets : carriesSecret later = carriesSecret request)
    (same : GitHubLocator.parse text' = GitHubLocator.parse text) :
    session.resolve later credential = session.resolve request credential := by
  simp only [resolve, named, named', secrets, same]

/-- The canonical form of an accepted text reads as the same locator, and the canonical
locator of a reply to the text is resolved, then and later, in every way like the text. -/
def CanonicalFormFixed (text : String) (locator : GitHubLocator) : Prop :=
  GitHubLocator.parse locator.toString = .ok locator ∧
    ∀ (session after : Session) (request : Value) (credential : Option String)
      (exchanges : Exchanges) (commit canonical : String),
      request.strAt "locator" = some text →
      (session.resolve request credential).Yields exchanges
        (reply (.resolve commit canonical), after) →
      GitHubLocator.parse canonical = .ok locator ∧ locator.toString = canonical ∧
        ∀ (session' : Session) (later : Value) (credential' : Option String),
          later.strAt "locator" = some canonical → carriesSecret later = false →
          session'.resolve later credential' = session'.resolve request credential'

/-- The canonical form is a fixed point exactly for the texts that survive being rendered. -/
theorem canonical_form_fixed_iff (serde : Faithful) {text : String} {locator : GitHubLocator}
    (h : GitHubLocator.parse text = .ok locator) :
    CanonicalFormFixed text locator ↔ SurvivesRendering text := by
  rw [← parse_toString_iff_survivesRendering h]
  refine ⟨And.left, fun fixed => ⟨fixed, ?_⟩⟩
  intro session after request credential exchanges commit canonical named ends
  obtain ⟨text', locator', answer, named', clean, parsed, -, -, rfl, -⟩ :=
    resolve_reply serde (resolve_yields_iff.mp ends)
  obtain rfl : text = text' := Option.some.inj (named ▸ named')
  obtain rfl : locator = locator' := Except.ok.inj (h ▸ parsed)
  refine ⟨fixed, rfl, ?_⟩
  intro session' later credential' named'' clean'
  exact session'.resolve_congr credential' named named'' (clean'.trans clean.symm)
    (fixed.trans h.symm)

end

theorem canonical_form_fixed_directory :
    @CanonicalFormFixed Json.compact
        "https://github.com/Example/Payments/tree/main/src/?tab=readme"
        ⟨"example", "payments", "src", "main"⟩ ↔
      SurvivesRendering "https://github.com/Example/Payments/tree/main/src/?tab=readme" :=
  @canonical_form_fixed_iff Json.compact faithful_compact _ _ (by decide)

/-- A path with an `@` in it: the canonical text is refused as holding a credential. -/
theorem canonical_form_refused :
    GitHubLocator.parse "https://github.com/o/r/blob/main/@types/x" =
        .ok ⟨"o", "r", "@types/x", "main"⟩ ∧
      GitHubLocator.parse (GitHubLocator.toString ⟨"o", "r", "@types/x", "main"⟩) =
        .error .credentialPresent := by
  decide

end Session

end GitHubProvider.Serve
