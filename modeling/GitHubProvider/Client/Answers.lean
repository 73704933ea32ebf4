/- Which answers of the host reach the judgement made of them. -/

import GitHubProvider.Client
import GitHubProvider.Serve.Calls
import GitHubProvider.Serve.Endings

set_option autoImplicit false
set_option relaxedAutoImplicit false

namespace GitHubProvider.Client

open Api (ApiError accepted judge)
open Http (Response)
open Interaction (Turn)
open Json (SerdeJson)
open Serve (Outcome Request Session Sha256 refuse)
open Text (toAsciiLowercase)

/-- The value a header arrived with: of several texts under one name the last. -/
def lastText (headers : List Header) (name : String) : Option String :=
  (headers.filterMap fun header =>
    if toAsciiLowercase header.name = toAsciiLowercase name then header.text else none).getLast?

structure Carries (response : Response) (reception : Reception) : Prop where
  status : response.status = reception.status
  header (name : String) : response.header name = lastText reception.headers name
  body : response.body.toList = reception.body.bytes

abbrev WireTurn := Turn Session Request Outcome Sending Arrival

/-- What arrived comes out of `get` as a response, and if that is judged to be a
refusal then each of the three calls fails with the code it is judged to be, and so
does every request it arrives in. -/
structure ReachesJudge [SerdeJson] [Sha256] [Ureq] (reception : Reception)
    (credential : Option String) (response : Response) : Prop where
  carries : Carries response reception
  get (url accept : String) : runOver reception (Http.get url accept credential) = .ok response
  resolveCommit {refusal : ApiError} (judged : judge response credential.isSome = .error refusal)
    (locator : Locator.GitHubLocator) : ∃ reason,
      runOver reception (Api.resolveCommit locator credential) = .error ⟨refusal.code, reason⟩
  enumerateTree {refusal : ApiError} (judged : judge response credential.isSome = .error refusal)
    (locator : Locator.GitHubLocator) (commit : String) : ∃ reason,
      runOver reception (Api.enumerateTree locator commit credential) =
        .error ⟨refusal.code, reason⟩
  readBlob {refusal : ApiError} (judged : judge response credential.isSome = .error refusal)
    (locator : Locator.GitHubLocator) (blobId : String) : ∃ reason,
      runOver reception (Api.readBlob locator blobId credential) = .error ⟨refusal.code, reason⟩
  reply {refusal : ApiError} (judged : judge response credential.isSome = .error refusal)
    {turn : WireTurn} (taken : serving.Takes turn) (given : turn.input.credential = credential)
    (arrived : ∃ e ∈ turn.exchanges, e.2 = some reception) :
    ∃ message, turn.output = refuse refusal.code message

private theorem header_textHeaders (headers : List Header) (name : String) :
    (textHeaders headers).lookup (toAsciiLowercase name) = lastText headers name := by
  rw [textHeaders, BTreeMap.lookup_collect, List.filterMap_filterMap, lastText]
  congr 2
  funext header
  cases header.text <;> simp

private theorem readToEnd_fits {body : Stream} (readable : body.fails = false)
    (fits : body.bytes.length ≤ maxResponseBytes) :
    ∃ bytes, body.readToEnd = some bytes ∧ bytes.toList = body.bytes := by
  have ends : ¬ (body.fails = true ∧ body.bytes.length < maxResponseBytes) := by
    simp [readable]
  rw [Stream.readToEnd, if_neg ends]
  exact ⟨_, rfl, List.take_of_length_le fits⟩

theorem takes_serving [SerdeJson] [Sha256] [Ureq] {turn : WireTurn} :
    serving.Takes turn ↔
      ∃ inner : Serve.Exchanges,
        Session.serving.Takes ⟨turn.before, turn.input, turn.output, inner, turn.after⟩ ∧
        List.Forall₂ (fun i o => o.1 = UreqClient.new.sending i.1 ∧
          i.2 = UreqClient.received (Ureq.call UreqClient.new.agent o.2)) inner turn.exchanges :=
  Interaction.Machine.takes_interpret

section

variable [Ureq] {reception : Reception}

theorem received_lost (documented : Documented)
    (lost : reception.IsRefusal ∨ Ureq.delivers UreqClient.new.agent reception = false) :
    ∃ reason, UreqClient.received (Ureq.call UreqClient.new.agent (some reception)) =
      .error reason := by
  cases delivered : Ureq.delivers UreqClient.new.agent reception with
  | false =>
      rw [documented.undelivered UreqClient.new.agent delivered]
      exact ⟨_, rfl⟩
  | true =>
      have refusal : reception.IsRefusal := by
        rcases lost with refusal | undelivered
        · exact refusal
        · rw [delivered] at undelivered
          cases undelivered
      rw [documented.refusal UreqClient.new.agent delivered rfl refusal]
      exact ⟨_, rfl⟩

theorem received_response (documented : Documented)
    (delivered : Ureq.delivers UreqClient.new.agent reception = true)
    (response : ¬ reception.IsRefusal) :
    UreqClient.received (Ureq.call UreqClient.new.agent (some reception)) =
      UreqClient.received (.ok reception) := by
  rw [documented.response UreqClient.new.agent delivered fun h => response h.2]

theorem received_eq_ok (documented : Documented) {arrival : Arrival} {response : Response}
    (received : UreqClient.received (Ureq.call UreqClient.new.agent arrival) = .ok response) :
    ∃ reception, arrival = some reception ∧ ¬ reception.IsRefusal ∧
      Ureq.delivers UreqClient.new.agent reception = true ∧
      response.status = reception.status ∧ reception.body.readToEnd = some response.body := by
  cases arrival with
  | none =>
      rw [documented.unreached] at received
      cases received
  | some reception =>
      have kept : ¬ (reception.IsRefusal ∨
          Ureq.delivers UreqClient.new.agent reception = false) := by
        intro lost
        obtain ⟨reason, failed⟩ := received_lost documented lost
        rw [failed] at received
        cases received
      obtain ⟨handed, delivered⟩ := not_or.mp kept
      rw [Bool.not_eq_false] at delivered
      rw [received_response documented delivered handed, UreqClient.received] at received
      cases read : reception.body.readToEnd with
      | none => simp [read] at received
      | some body =>
          simp only [read, Except.ok.injEq] at received
          subst received
          exact ⟨reception, rfl, handed, delivered, rfl, read⟩

private theorem reaches [SerdeJson] [Sha256] {credential : Option String} {response : Response}
    (carries : Carries response reception)
    (received : UreqClient.received (Ureq.call UreqClient.new.agent (some reception)) =
      .ok response) :
    ReachesJudge reception credential response := by
  have refused {refusal : ApiError} (judged : judge response credential.isSome = .error refusal) :
      accepted (UreqClient.received (Ureq.call UreqClient.new.agent (some reception)))
        credential.isSome = .error refusal := by
    rw [received]
    exact Api.accepted_refused judged
  refine ⟨carries, fun _ _ => received, fun judged _ => ?_, fun judged _ _ => ?_,
    fun judged _ _ => ?_, fun judged turn taken given arrived => ?_⟩
  · exact ⟨_, Api.namedCommit_refused (refused judged)⟩
  · exact ⟨_, Api.listing_refused (refused judged)⟩
  · exact ⟨_, congrArg (Except.map Response.body) (refused judged)⟩
  · obtain ⟨inner, taken, seen⟩ := takes_serving.mp taken
    obtain ⟨outer, houter, arrival⟩ := arrived
    obtain ⟨i, hi, -, answered⟩ := Api.exists_of_mem_forall₂ seen houter
    rw [arrival] at answered
    subst given
    have ends := refused judged
    rw [← answered] at ends
    exact ⟨_, Serve.takes_refused taken hi ends⟩

private theorem lost_unjudged [SerdeJson] [Sha256] (documented : Documented)
    (lost : reception.IsRefusal ∨ Ureq.delivers UreqClient.new.agent reception = false)
    {credential : Option String} {response : Response} :
    ¬ ReachesJudge reception credential response := by
  intro reaches
  have get : UreqClient.received (Ureq.call UreqClient.new.agent (some reception)) =
      .ok response := reaches.get "" ""
  obtain ⟨reason, failed⟩ := received_lost documented lost
  rw [failed] at get
  cases get

/-- For an answer that can be read and fits, whatever its headers and whether or not
there is a credential: it reaches `judge` exactly if its status is neither 4xx nor 5xx
and `ureq` can deliver it. -/
theorem answer_reaches_judge_iff [SerdeJson] [Sha256] (documented : Documented)
    (readable : reception.body.fails = false)
    (fits : reception.body.bytes.length ≤ maxResponseBytes) (credential : Option String) :
    (∃ response, ReachesJudge reception credential response) ↔
      ¬ reception.IsRefusal ∧ Ureq.delivers UreqClient.new.agent reception = true := by
  constructor
  · intro h
    obtain ⟨response, reached⟩ := h
    constructor
    · intro refusal
      exact lost_unjudged documented (.inl refusal) reached
    · rw [← Bool.not_eq_false]
      intro undelivered
      exact lost_unjudged documented (.inr undelivered) reached
  · intro h
    obtain ⟨response, delivered⟩ := h
    obtain ⟨body, read, whole⟩ := readToEnd_fits readable fits
    have received : UreqClient.received (Ureq.call UreqClient.new.agent (some reception)) =
        .ok ⟨reception.status, textHeaders reception.headers, body⟩ := by
      rw [received_response documented delivered response]
      simp only [UreqClient.received, read]
    have header (name : String) :
        Response.header ⟨reception.status, textHeaders reception.headers, body⟩ name =
          lastText reception.headers name := header_textHeaders reception.headers name
    exact ⟨_, reaches ⟨rfl, header, whole⟩ received⟩

end

/-- Whether `ureq` delivers the answer. As a final answer a redirect, 304 apart, is one that could
not be followed. A head may have 128 lines and 64 KiB. -/
def Reception.delivered (reception : Reception) : Bool :=
  !(300 ≤ reception.status && reception.status ≤ 399 && reception.status != 304) &&
    reception.headers.length ≤ 128 &&
    (reception.headers.map fun header => header.name.length + header.value.length + 4).sum ≤
      64 * 1024

abbrev documentedUreq : Ureq where
  delivers _ reception := reception.delivered
  call
    | _, none => .error .other
    | config, some reception =>
        if reception.delivered = false then .error .other
        else if config.httpStatusAsError = true ∧ reception.IsRefusal then
          .error (.statusCode reception.status)
        else .ok reception

theorem documented_documentedUreq : @Documented documentedUreq := by
  have passes {reception : Reception} (delivered : reception.delivered = true) :
      ¬ reception.delivered = false := by
    rw [Bool.not_eq_false]
    exact delivered
  refine @Documented.mk documentedUreq (fun _ => rfl) (fun _ _ undelivered => if_pos undelivered)
    (fun config reception delivered asError refusal => ?_)
    fun config reception delivered response => ?_
  · exact (if_neg (passes delivered)).trans (if_pos ⟨asError, refusal⟩)
  · exact (if_neg (passes delivered)).trans (if_neg response)

section

attribute [local instance] Json.compact Serve.sha2 documentedUreq

def bare (status : UInt16) : Reception := ⟨status, [], [], false⟩

/-- A file of one byte, with the quota that is left and a header that is not a text. -/
def quoted : Reception where
  status := 200
  headers := [⟨"X-RateLimit-Remaining", [48]⟩, ⟨"X-RateLimit-Remaining", [53]⟩, ⟨"ETag", [255]⟩]
  body := ⟨[120], false⟩

theorem answer_reaches_judge_quoted :
    ∃ response, ReachesJudge quoted (some "token") response :=
  (answer_reaches_judge_iff documented_documentedUreq rfl (by decide) (some "token")).mpr
    ⟨by decide, by decide⟩

/-- A 404 without a credential is judged to ask for one. Over the client it is said
to come from a source that is unavailable. -/
theorem answer_lost :
    (¬ ∃ response, ReachesJudge (bare 404) none response) ∧
      (accepted (.ok ⟨404, ∅, .empty⟩) false).mapError ApiError.code =
        .error .credentialRequired ∧
      (runOver (bare 404) (Api.resolveCommit Serve.parent none)).mapError ApiError.code =
        .error .sourceUnavailable := by
  refine ⟨?_, rfl, rfl⟩
  intro h
  obtain ⟨response, reached⟩ := h
  exact lost_unjudged documented_documentedUreq (.inl (by decide)) reached

end

end GitHubProvider.Client
