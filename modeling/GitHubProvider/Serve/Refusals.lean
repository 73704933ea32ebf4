/- What the code of a refusal says of the host's last answer. -/

import GitHubProvider.Serve.Calls
import GitHubProvider.Serve.Endings

set_option autoImplicit false
set_option relaxedAutoImplicit false

namespace GitHubProvider.Serve

open Api (ApiError FailsWith SaysLimited Success commitGet)
open Http (Answer Get Response)
open Json (SerdeJson)
open Locator (GitHubLocator)

section

variable [SerdeJson]

def RefusedWith (turn : SessionTurn) (code : ProviderCode) : Prop :=
  ∃ message, turn.output = refuse code message

/-- The answer says that a rate limit was reached, or is a listing that was cut short. -/
def ReachesLimit (session : Session) (request : Request) (exchange : Get × Answer) : Prop :=
  ∃ response, exchange.2 = .ok response ∧
    (response.status = 429 ∨ (response.status = 403 ∧ SaysLimited response) ∨
      (Success response ∧ purpose session request exchange.1 = .tree ∧
        ∃ document, SerdeJson.fromSlice response.body.toList = .ok document ∧
          document.get "truncated" = some (.bool true)))

/-- A limit is reported when the last answer says that one was reached, and only then. -/
def LimitReported (turn : SessionTurn) : Prop :=
  RefusedWith turn .limitExceeded ↔
    ∃ last ∈ turn.exchanges.getLast?, ReachesLimit turn.before turn.input last

/-- A credential is rejected only if one was sent, and required only if none was. -/
structure BlamesWhatWasSent (turn : SessionTurn) : Prop where
  rejected : RefusedWith turn .credentialRejected →
    turn.exchanges ≠ [] ∧ ∀ e ∈ turn.exchanges, e.1.credential ≠ none
  required : RefusedWith turn .credentialRequired →
    turn.exchanges ≠ [] ∧ ∀ e ∈ turn.exchanges, e.1.credential = none

variable [Sha256] {turn : SessionTurn}

theorem takes_credential (h : Session.serving.Takes turn) :
    ∀ e ∈ turn.exchanges, e.1.credential = turn.input.credential := by
  intro e he
  rcases takes_get h he with ⟨_, _, locator, -, -, -, -, asked⟩ |
    ⟨_, _, snapshot, locator, -, -, -, asked⟩
  · rw [asked, commitGet]
  · rcases asked with tree | ⟨_, -, entry, -, blob⟩
    · rw [tree, Api.treeGet]
    · rw [blob, Api.blobGet]

section

variable {session : Session} {request : Request} {e : Get × Answer}

omit [Sha256] in
private theorem limitExceeded_verdict :
    FailsWith .limitExceeded (verdict session request e) ↔ ∃ response, e.2 = .ok response ∧
      (((response.status = 403 ∨ response.status = 429) ∧ SaysLimited response) ∨
        (purpose session request e.1 = .tree ∧ Success response ∧
          ∃ document, SerdeJson.fromSlice response.body.toList = .ok document ∧
            document.get "truncated" = some (.bool true))) := by
  have other : ProviderCode.limitExceeded ≠ .sourceUnavailable := by decide
  simp only [verdict_failsWith_iff other, Api.judge_limitExceeded_iff, true_and]

omit [Sha256] in
private theorem credentialRejected_verdict :
    FailsWith .credentialRejected (verdict session request e) ↔ ∃ response, e.2 = .ok response ∧
      (response.status = 401 ∨ (response.status = 403 ∧ ¬SaysLimited response)) := by
  have other : ProviderCode.credentialRejected ≠ .sourceUnavailable := by decide
  simp only [verdict_failsWith_iff other, Api.judge_credentialRejected_iff, reduceCtorEq,
    false_and, or_false]

omit [Sha256] in
private theorem credentialRequired_verdict :
    FailsWith .credentialRequired (verdict session request e) ↔ ∃ response, e.2 = .ok response ∧
      response.status = 404 ∧ request.credential = none := by
  have other : ProviderCode.credentialRequired ≠ .sourceUnavailable := by decide
  simp only [verdict_failsWith_iff other, Api.judge_credentialRequired_iff, reduceCtorEq,
    false_and, or_false, Option.isSome_eq_false_iff, Option.isNone_iff_eq_none]

end

/-- A limit is reported as one exactly if the last answer is not a 429 without a header that
says so. -/
theorem limit_reported_iff (serde : Faithful) (h : Session.serving.Takes turn) :
    LimitReported turn ↔ ∀ last ∈ turn.exchanges.getLast?, ∀ response,
      last.2 = .ok response → response.status = 429 → SaysLimited response := by
  have refusal : RefusedWith turn .limitExceeded ↔ _ :=
    (takes_ending h).refuses_iff serde (by simp [ownCodes])
  simp only [limitExceeded_verdict] at refusal
  constructor
  · intro reported last hlast response received status
    have reaches : ReachesLimit turn.before turn.input last := ⟨response, received, .inl status⟩
    obtain ⟨last', hlast', response', received', kinds⟩ :=
      refusal.mp (reported.mpr ⟨last, hlast, reaches⟩)
    obtain rfl := Option.some.inj (hlast.symm.trans hlast')
    obtain rfl := Except.ok.inj (received.symm.trans received')
    rcases kinds with ⟨-, spent⟩ | ⟨-, success, -⟩
    · exact spent
    · exact absurd success (Api.not_success (by simp [status]))
  · intro stated
    constructor
    · intro refused
      obtain ⟨last, hlast, response, received, kinds⟩ := refusal.mp refused
      refine ⟨last, hlast, response, received, ?_⟩
      rcases kinds with ⟨forbidden | many, spent⟩ | ⟨tree, success, truncated⟩
      · exact .inr (.inl ⟨forbidden, spent⟩)
      · exact .inl many
      · exact .inr (.inr ⟨success, tree, truncated⟩)
    · intro reaches
      obtain ⟨last, hlast, response, received, kinds⟩ := reaches
      refine refusal.mpr ⟨last, hlast, response, received, ?_⟩
      rcases kinds with many | ⟨forbidden, spent⟩ | ⟨success, tree, truncated⟩
      · exact .inl ⟨.inr many, stated last hlast response received many⟩
      · exact .inl ⟨.inl forbidden, spent⟩
      · exact .inr ⟨tree, success, truncated⟩

/-- Only a credential that was sent is blamed exactly if one was sent, or no answer is a 401
or a 403 that is not a rate limit. -/
theorem blames_what_was_sent_iff (serde : Faithful) (h : Session.serving.Takes turn) :
    BlamesWhatWasSent turn ↔ turn.input.credential ≠ none ∨
      ∀ e ∈ turn.exchanges, ∀ response, e.2 = .ok response →
        response.status ≠ 401 ∧ (response.status = 403 → SaysLimited response) := by
  have rejected : RefusedWith turn .credentialRejected ↔ _ :=
    (takes_ending h).refuses_iff serde (by simp [ownCodes])
  have required : RefusedWith turn .credentialRequired ↔ _ :=
    (takes_ending h).refuses_iff serde (by simp [ownCodes])
  simp only [credentialRejected_verdict] at rejected
  simp only [credentialRequired_verdict] at required
  have asked {last : Get × Answer} (hlast : last ∈ turn.exchanges.getLast?) :
      turn.exchanges ≠ [] := List.ne_nil_of_mem (List.mem_of_getLast? hlast)
  constructor
  · intro blames
    by_cases unsent : turn.input.credential = none
    · right
      intro e he response received
      by_contra blamed
      have kinds : response.status = 401 ∨ (response.status = 403 ∧ ¬SaysLimited response) := by
        simpa only [not_and_or, not_not, Classical.not_imp] using blamed
      obtain ⟨error, failed, code⟩ :=
        credentialRejected_verdict.mpr ⟨response, received, kinds⟩
      have output := (takes_ending h).refused he failed
      rw [code] at output
      apply (blames.rejected ⟨error.reason, output⟩).2 e he
      rw [takes_credential h e he, unsent]
    · exact .inl unsent
  · intro clear
    constructor
    · intro refused
      obtain ⟨last, hlast, response, received, kinds⟩ := rejected.mp refused
      refine ⟨asked hlast, fun e he => ?_⟩
      rw [takes_credential h e he]
      rcases clear with sent | answers
      · exact sent
      · have good := answers last (List.mem_of_getLast? hlast) response received
        rcases kinds with unauthorized | ⟨forbidden, silent⟩
        · exact absurd unauthorized good.1
        · exact absurd (good.2 forbidden) silent
    · intro refused
      obtain ⟨last, hlast, response, -, -, unsent⟩ := required.mp refused
      refine ⟨asked hlast, fun e he => ?_⟩
      rw [takes_credential h e he, unsent]

end

section

attribute [local instance] Json.compact sha2

def denied (response : Response) (error : ApiError) : SessionTurn :=
  ⟨opening.after, (Call.resolve "github://o/r/a?ref=m").request none,
    refuse error.code error.reason, [(commitGet parent none, .ok response)], opening.after⟩

theorem takes_denied {response : Response} {error : ApiError}
    (judged : Api.judge response false = .error error) :
    Session.serving.Takes (denied response error) := by
  have failed : Api.namedCommit (.ok response) false = .error error :=
    Api.namedCommit_refused (Api.accepted_refused judged)
  have parsed : GitHubLocator.parse "github://o/r/a?ref=m" = .ok parent := by decide
  have cases : opening.after.ResolveCase (Call.resolve "github://o/r/a?ref=m").document none
      [(commitGet parent none, .ok response)] (refuse error.code error.reason) opening.after :=
    .failed rfl rfl parsed failed
  exact Session.handle_yields_iff.mpr
    (.resolve ((Call.resolve "github://o/r/a?ref=m").admission_line (.inr rfl)) cases)

def bare (status : UInt16) : Response := ⟨status, ∅, .empty⟩

def waiting : Response := (bare 429).withHeader "Retry-After" "60"

theorem limit_reported_waiting :
    LimitReported (denied waiting ⟨.limitExceeded, "the host's rate limit is exhausted"⟩) ↔
      ∀ last ∈ [(commitGet parent none, (.ok waiting : Answer))].getLast?, ∀ response,
        last.2 = .ok response → response.status = 429 → SaysLimited response :=
  limit_reported_iff faithful_compact (takes_denied rfl)

/-- Too many requests, and no header that says so. -/
theorem limit_unreported :
    Session.serving.Takes (denied (bare 429) ⟨.sourceUnavailable, "the host answered 429"⟩) ∧
      ¬LimitReported (denied (bare 429) ⟨.sourceUnavailable, "the host answered 429"⟩) := by
  refine ⟨takes_denied rfl, fun reported => ?_⟩
  obtain ⟨message, same⟩ := reported.mpr ⟨_, rfl, bare 429, rfl, .inl rfl⟩
  have codes := (faithful_compact.replyWith_inj.mp same).1
  cases codes

theorem blames_what_was_sent_absent :
    BlamesWhatWasSent (denied (bare 404) ⟨.credentialRequired,
        "not found, which without a credential also means not visible"⟩) ↔
      (none : Option String) ≠ none ∨
        ∀ e ∈ [(commitGet parent none, (.ok (bare 404) : Answer))], ∀ response, e.2 = .ok response →
          response.status ≠ 401 ∧ (response.status = 403 → SaysLimited response) :=
  blames_what_was_sent_iff faithful_compact (takes_denied rfl)

/-- A 401 for a request that sent no credential. -/
theorem unsent_credential_blamed :
    Session.serving.Takes
        (denied (bare 401) ⟨.credentialRejected, "the host rejected the credential"⟩) ∧
      ¬BlamesWhatWasSent
        (denied (bare 401) ⟨.credentialRejected, "the host rejected the credential"⟩) := by
  refine ⟨takes_denied rfl, fun blames => ?_⟩
  exact (blames.rejected ⟨_, rfl⟩).2 _ List.mem_cons_self rfl

end

end GitHubProvider.Serve
