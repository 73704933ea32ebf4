/- How a request ends: what each of its GETs is for, and the first answer that fails it. -/

import GitHubProvider.Api.Codes
import GitHubProvider.Serve.Effects

set_option autoImplicit false
set_option relaxedAutoImplicit false

namespace GitHubProvider.Serve

open Api (ApiError Tree accepted blobGet commitGet listing namedCommit treeGet)
open Http (Answer Get)
open Json (SerdeJson Value)
open Locator (GitHubLocator)

inductive Purpose where
  | commit
  | tree
  | blob
  deriving DecidableEq

def Reply.serves : Reply → Bool
  | .error _ _ => false
  | _ => true

/-- The codes of a refusal that is the provider's own. -/
def ownCodes : List ProviderCode :=
  [.protocolUnsupported, .requestInvalid, .locatorInvalid, .sourceUnavailable]

variable [SerdeJson]

def kindOf (session : Session) (line : String) : Option String :=
  match admission session.handshaken line with
  | .ok (_, kind) => kind
  | .error _ => none

/-- A resolve asks for a commit; every other request for a tree or, raw, for a blob. -/
def purpose (session : Session) (request : Request) (get : Get) : Purpose :=
  if kindOf session request.line = some "resolve" then .commit
  else if get.accept = Api.rawMediaType then .blob
  else .tree

/-- What the request makes of the answer to a GET. -/
def verdict (session : Session) (request : Request) (exchange : Get × Answer) :
    Except ApiError Unit :=
  match purpose session request exchange.1 with
  | .commit => (namedCommit exchange.2 request.credential.isSome).map fun _ => ()
  | .tree => (listing exchange.2 request.credential.isSome).map fun _ => ()
  | .blob => (accepted exchange.2 request.credential.isSome).map fun _ => ()

inductive Ending (session : Session) (request : Request) (exchanges : Exchanges)
    (output : Outcome) : Prop
  | closed : exchanges = [] → output = .done → Ending session request exchanges output
  | served {answer : Reply} {content : Bytes} :
      (∀ e ∈ exchanges, verdict session request e = .ok ()) → answer.serves = true →
      output = replyWith answer content → Ending session request exchanges output
  | declined {code : ProviderCode} {message : String} :
      (∀ e ∈ exchanges, verdict session request e = .ok ()) → code ∈ ownCodes →
      output = refuse code message → Ending session request exchanges output
  | failed {earlier : Exchanges} {last : Get × Answer} {error : ApiError} :
      exchanges = earlier ++ [last] → (∀ e ∈ earlier, verdict session request e = .ok ()) →
      verdict session request last = .error error →
      output = refuse error.code error.reason → Ending session request exchanges output

section

variable {session : Session} {request : Request} {document : Value} {kind : String}
  {locator : GitHubLocator} {snapshot blobId : String} {answer : Answer}

theorem kindOf_admitted {named : Option String}
    (admitted : admission session.handshaken request.line = .ok (document, named)) :
    kindOf session request.line = named := by
  rw [kindOf, admitted]

theorem verdict_commit
    (admitted : admission session.handshaken request.line = .ok (document, some "resolve")) :
    verdict session request (commitGet locator request.credential, answer) =
      (namedCommit answer request.credential.isSome).map fun _ => () := by
  have commit : purpose session request (commitGet locator request.credential) = .commit := by
    rw [purpose, kindOf_admitted admitted, if_pos rfl]
  rw [verdict, commit]

omit [SerdeJson] in
private theorem other_ne_resolve (hkind : kind ∈ snapshotKinds) : some kind ≠ some "resolve" := by
  rintro ⟨⟩
  simp [snapshotKinds] at hkind

theorem verdict_tree
    (admitted : admission session.handshaken request.line = .ok (document, some kind))
    (hkind : kind ∈ snapshotKinds) :
    verdict session request (treeGet locator snapshot request.credential, answer) =
      (listing answer request.credential.isSome).map fun _ => () := by
  have tree : purpose session request (treeGet locator snapshot request.credential) = .tree := by
    rw [purpose, kindOf_admitted admitted, if_neg (other_ne_resolve hkind)]
    exact if_neg Api.json_ne_raw
  rw [verdict, tree]

theorem verdict_blob
    (admitted : admission session.handshaken request.line = .ok (document, some kind))
    (hkind : kind ∈ snapshotKinds) :
    verdict session request (blobGet locator blobId request.credential, answer) =
      (accepted answer request.credential.isSome).map fun _ => () := by
  have blob : purpose session request (blobGet locator blobId request.credential) = .blob := by
    rw [purpose, kindOf_admitted admitted, if_neg (other_ne_resolve hkind)]
    exact if_pos rfl
  rw [verdict, blob]

private theorem Ending.alone {last : Get × Answer} {error : ApiError}
    (failed : verdict session request last = .error error) :
    Ending session request [last] (refuse error.code error.reason) :=
  .failed (List.nil_append [last]).symm (by simp) failed rfl

private theorem tree_served {after : Session} {exchanges : Exchanges} {tree : Tree}
    (admitted : admission session.handshaken request.line = .ok (document, some kind))
    (hkind : kind ∈ snapshotKinds)
    (h : session.TreeCase locator snapshot request.credential exchanges (.ok tree) after) :
    ∀ e ∈ exchanges, verdict session request e = .ok () := by
  cases h with
  | held => simp
  | listed _ listed =>
      intro e he
      rw [List.mem_singleton.mp he, verdict_tree admitted hkind, listed]
      rfl

private theorem tree_failed {after : Session} {exchanges : Exchanges} {error : ApiError}
    (admitted : admission session.handshaken request.line = .ok (document, some kind))
    (hkind : kind ∈ snapshotKinds)
    (h : session.TreeCase locator snapshot request.credential exchanges (.error error) after) :
    ∃ last, exchanges = [] ++ [last] ∧ verdict session request last = .error error := by
  cases h with
  | failed _ failed =>
      refine ⟨_, rfl, ?_⟩
      rw [verdict_tree admitted hkind, failed]
      rfl

private theorem admission_ending {outcome : Outcome}
    (refused : admission session.handshaken request.line = .error outcome) :
    Ending session request [] outcome := by
  rcases admission_error_code refused with rfl | ⟨code, message, rfl, own⟩
  · exact .closed rfl rfl
  · refine .declined (by simp) ?_ rfl
    simp only [List.mem_cons, List.not_mem_nil, or_false] at own
    rcases own with rfl | rfl <;> simp [ownCodes]

private theorem resolve_ending {after : Session} {exchanges : Exchanges} {output : Outcome}
    (admitted : admission session.handshaken request.line = .ok (document, some "resolve"))
    (h : session.ResolveCase document request.credential exchanges output after) :
    Ending session request exchanges output := by
  cases h with
  | unnamed | secret | unread => exact .declined (by simp) (by simp [ownCodes]) rfl
  | failed _ _ _ failed =>
      apply Ending.alone
      rw [verdict_commit admitted, failed]
      rfl
  | resolved _ _ _ named =>
      refine .served (fun e he => ?_) rfl rfl
      rw [List.mem_singleton.mp he, verdict_commit admitted, named]
      rfl

private theorem enumerate_ending {after : Session} {exchanges : Exchanges} {output : Outcome}
    (admitted : admission session.handshaken request.line = .ok (document, some "enumerate"))
    (h : session.EnumerateCase document request.credential exchanges output after) :
    Ending session request exchanges output := by
  have hkind : "enumerate" ∈ snapshotKinds := by simp [snapshotKinds]
  cases h with
  | notResolved => exact .declined (by simp) (by simp [ownCodes]) rfl
  | failed _ tree =>
      obtain ⟨last, asked, failed⟩ := tree_failed admitted hkind tree
      exact .failed asked (by simp) failed rfl
  | listed _ tree => exact .served (tree_served admitted hkind tree) rfl rfl

private theorem read_ending {after : Session} {exchanges : Exchanges} {output : Outcome}
    (admitted : admission session.handshaken request.line = .ok (document, some "read"))
    (h : session.ReadCase document request.credential exchanges output after) :
    Ending session request exchanges output := by
  have hkind : "read" ∈ snapshotKinds := by simp [snapshotKinds]
  cases h with
  | notResolved | unnamed => exact .declined (by simp) (by simp [ownCodes]) rfl
  | failed _ _ tree =>
      obtain ⟨last, asked, failed⟩ := tree_failed admitted hkind tree
      exact .failed asked (by simp) failed rfl
  | absent _ _ tree =>
      exact .declined (tree_served admitted hkind tree) (by simp [ownCodes]) rfl
  | refused _ _ tree _ judged =>
      refine .failed rfl (tree_served admitted hkind tree) ?_ rfl
      rw [verdict_blob admitted hkind, judged]
      rfl
  | answered _ _ tree _ judged =>
      refine .served (fun e he => ?_) rfl rfl
      rcases List.mem_append.mp he with first | second
      · exact tree_served admitted hkind tree e first
      · rw [List.mem_singleton.mp second, verdict_blob admitted hkind, judged]
        rfl

private theorem materialize_ending [Sha256] {exchanges : Exchanges} {output : Outcome}
    (admitted : admission session.handshaken request.line = .ok (document, some "materialize"))
    (h : session.MaterializeCase document request.credential exchanges output) :
    Ending session request exchanges output := by
  have hkind : "materialize" ∈ snapshotKinds := by simp [snapshotKinds]
  have tree_verdict {locator : GitHubLocator} {snapshot : String} {answer : Answer} {tree : Tree}
      (listed : listing answer request.credential.isSome = .ok tree) :
      ∀ e ∈ [(treeGet locator snapshot request.credential, answer)],
        verdict session request e = .ok () := by
    intro e he
    rw [List.mem_singleton.mp he, verdict_tree admitted hkind, listed]
    rfl
  cases h with
  | notResolved | root => exact .declined (by simp) (by simp [ownCodes]) rfl
  | failed _ _ failed =>
      apply Ending.alone
      rw [verdict_tree admitted hkind, failed]
      rfl
  | absent _ _ listed => exact .declined (tree_verdict listed) (by simp [ownCodes]) rfl
  | refused _ _ listed _ judged =>
      refine .failed (show _ = [_] ++ [_] from rfl) (tree_verdict listed) ?_ rfl
      rw [verdict_blob admitted hkind, judged]
      rfl
  | answered _ _ listed _ judged =>
      refine .served (fun e he => ?_) rfl rfl
      rcases List.mem_cons.mp he with rfl | second
      · exact tree_verdict listed _ List.mem_cons_self
      · rw [List.mem_singleton.mp second, verdict_blob admitted hkind, judged]
        rfl

theorem takes_ending [Sha256] {turn : SessionTurn} (h : Session.serving.Takes turn) :
    Ending turn.before turn.input turn.exchanges turn.output := by
  have cases := takes_cases h
  generalize turn.after = after, turn.output = output, turn.exchanges = exchanges at cases ⊢
  cases cases with
  | refused refused => exact admission_ending refused
  | handshake => exact .served (by simp) rfl rfl
  | resolve admitted cases => exact resolve_ending admitted cases
  | enumerate admitted cases => exact enumerate_ending admitted cases
  | read admitted cases => exact read_ending admitted cases
  | materialize admitted cases => exact materialize_ending admitted cases
  | undefined | unnamed => exact .declined (by simp) (by simp [ownCodes]) rfl

variable {exchanges : Exchanges} {output : Outcome} {code : ProviderCode}

theorem Ending.refused (h : Ending session request exchanges output) {e : Get × Answer}
    (he : e ∈ exchanges) {error : ApiError} (failed : verdict session request e = .error error) :
    output = refuse error.code error.reason := by
  have served (earlier : Exchanges) (good : ∀ e ∈ earlier, verdict session request e = .ok ()) :
      e ∉ earlier := by
    intro mem
    rw [good e mem] at failed
    cases failed
  cases h with
  | closed silent =>
      rw [silent] at he
      cases he
  | served good | declined good => exact absurd he (served _ good)
  | failed split good failed' ends =>
      rw [split, List.mem_append, List.mem_singleton] at he
      rcases he with first | rfl
      · exact absurd first (served _ good)
      · obtain rfl := Except.error.inj (failed.symm.trans failed')
        exact ends

theorem verdict_refused {e : Get × Answer} {error : ApiError}
    (refused : accepted e.2 request.credential.isSome = .error error) :
    verdict session request e = .error error := by
  unfold verdict
  cases purpose session request e.1 with
  | commit =>
      dsimp only
      rw [Api.namedCommit_refused refused]
      rfl
  | tree =>
      dsimp only
      rw [Api.listing_refused refused]
      rfl
  | blob =>
      dsimp only
      rw [refused]
      rfl

theorem takes_refused [Sha256] {turn : SessionTurn} (h : Session.serving.Takes turn)
    {e : Get × Answer} (he : e ∈ turn.exchanges) {error : ApiError}
    (refused : accepted e.2 turn.input.credential.isSome = .error error) :
    turn.output = refuse error.code error.reason :=
  (takes_ending h).refused he (verdict_refused refused)

/-- A refusal with a code that is not the provider's own is the host's, for its last answer. -/
theorem Ending.refuses_iff (serde : Faithful) (h : Ending session request exchanges output)
    (other : code ∉ ownCodes) :
    (∃ message, output = refuse code message) ↔
      ∃ last ∈ exchanges.getLast?, Api.FailsWith code (verdict session request last) := by
  constructor
  · intro refusal
    obtain ⟨message, refusal⟩ := refusal
    cases h with
    | closed _ ends =>
        rw [ends] at refusal
        cases refusal
    | served _ serves ends =>
        have same := (serde.replyWith_inj.mp (ends.symm.trans refusal)).1
        rw [same] at serves
        cases serves
    | declined _ own ends =>
        have same := (serde.replyWith_inj.mp (ends.symm.trans refusal)).1
        obtain ⟨rfl, -⟩ := Reply.error.inj same
        exact absurd own other
    | @failed earlier last error split _ failed ends =>
        have same := (serde.replyWith_inj.mp (ends.symm.trans refusal)).1
        obtain ⟨codes, -⟩ := Reply.error.inj same
        refine ⟨last, ?_, error, failed, codes⟩
        rw [split, List.getLast?_append, List.getLast?_singleton]
        rfl
  · intro h'
    obtain ⟨last, hlast, error, failed, rfl⟩ := h'
    exact ⟨error.reason, h.refused (List.mem_of_getLast? hlast) failed⟩

theorem verdict_failsWith_iff {e : Get × Answer} (other : code ≠ .sourceUnavailable) :
    Api.FailsWith code (verdict session request e) ↔ ∃ response, e.2 = .ok response ∧
      (Api.FailsWith code (Api.judge response request.credential.isSome) ∨
        (code = .limitExceeded ∧ purpose session request e.1 = .tree ∧ Api.Success response ∧
          ∃ document, SerdeJson.fromSlice response.body.toList = .ok document ∧
            document.get "truncated" = some (.bool true))) := by
  have plain : Api.FailsWith code (accepted e.2 request.credential.isSome) ↔
      ∃ response, e.2 = .ok response ∧
        Api.FailsWith code (Api.judge response request.credential.isSome) :=
    Api.accepted_failsWith_iff other
  cases aim : purpose session request e.1 with
  | commit =>
      simp only [verdict, aim, Api.failsWith_map, Api.namedCommit_failsWith_iff other, plain,
        reduceCtorEq, false_and, and_false, or_false]
  | blob =>
      simp only [verdict, aim, Api.failsWith_map, plain, reduceCtorEq, false_and, and_false,
        or_false]
  | tree =>
      simp only [verdict, aim, Api.failsWith_map, Api.listing_failsWith_iff other, plain, true_and,
        Api.accepted_eq_ok_iff, Api.judge_ok_iff]
      constructor
      · intro h
        rcases h with ⟨response, received, failed⟩ |
          ⟨limit, response, document, ⟨received, success⟩, read, truncated⟩
        · exact ⟨response, received, .inl failed⟩
        · exact ⟨response, received, .inr ⟨limit, success, document, read, truncated⟩⟩
      · intro h
        obtain ⟨response, received, failed | ⟨limit, success, document, read, truncated⟩⟩ := h
        · exact .inl ⟨response, received, failed⟩
        · exact .inr ⟨limit, response, document, ⟨received, success⟩, read, truncated⟩

end

def unfailed (turn : SessionTurn) : Bool :=
  turn.exchanges.all fun e => (verdict turn.before turn.input e).isOk

theorem unfailed_iff {turn : SessionTurn} :
    unfailed turn = true ↔ ∀ e ∈ turn.exchanges, verdict turn.before turn.input e = .ok () := by
  simp only [unfailed, List.all_eq_true]
  refine forall₂_congr fun e _ => ?_
  cases verdict turn.before turn.input e <;> simp [Except.isOk, Except.toBool]

theorem treeCase_unfailed {session after : Session} {request : Request} {document : Value}
    {kind snapshot : String} {locator : GitHubLocator} {exchanges : Exchanges} {error : ApiError}
    (admitted : admission session.handshaken request.line = .ok (document, some kind))
    (hkind : kind ∈ snapshotKinds)
    (good : ∀ e ∈ exchanges, verdict session request e = .ok ()) :
    ¬session.TreeCase locator snapshot request.credential exchanges (.error error) after := by
  intro h
  cases h with
  | failed _ failed =>
      have fine := good _ List.mem_cons_self
      rw [verdict_tree admitted hkind, failed] at fine
      cases fine

end GitHubProvider.Serve
