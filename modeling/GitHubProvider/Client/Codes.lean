/- The codes that requests over the client can be refused with. -/

import GitHubProvider.Client.Answers

set_option autoImplicit false
set_option relaxedAutoImplicit false

namespace GitHubProvider.Client

open Api (FailsWith)
open Http (Response)
open Json (SerdeJson)
open Serve (Faithful Sha256 ownCodes refuse takes_ending verdict_failsWith_iff)

section

variable [SerdeJson]

structure CodesOverClient (turn : WireTurn) : Prop where
  refusal : (∃ e ∈ turn.exchanges, ∃ reception, e.2 = some reception ∧ reception.IsRefusal) →
    ∃ message, turn.output = refuse .sourceUnavailable message
  credentialRequired (message : String) : turn.output ≠ refuse .credentialRequired message
  credentialRejected (message : String) : turn.output ≠ refuse .credentialRejected message
  limitExceeded : (∃ message, turn.output = refuse .limitExceeded message) →
    ∃ last ∈ turn.exchanges.getLast?, ∃ reception body document, last.2 = some reception ∧
      200 ≤ reception.status ∧ reception.status ≤ 299 ∧
      reception.body.readToEnd = some body ∧ SerdeJson.fromSlice body.toList = .ok document ∧
      document.get "truncated" = some (.bool true)

variable [Sha256] [Ureq] {turn : WireTurn}

omit [SerdeJson] [Sha256] [Ureq] in
private theorem last_related {α β : Type} {R : α → β → Prop} {xs : List α} {ys : List β}
    (h : List.Forall₂ R xs ys) {x : α} (hx : x ∈ xs.getLast?) : ∃ y ∈ ys.getLast?, R x y := by
  obtain ⟨front, rfl⟩ := List.getLast?_eq_some_iff.mp hx
  have reversed := List.forall₂_reverse_iff.mpr h
  rw [List.reverse_append, List.reverse_singleton, List.singleton_append] at reversed
  obtain ⟨y, rest, related, -, ends⟩ := List.forall₂_cons_left_iff.mp reversed
  refine ⟨y, ?_, related⟩
  rw [← List.head?_reverse, ends]
  rfl

omit [SerdeJson] [Sha256] [Ureq] in
private theorem judged_unavailable {response : Response} {authenticated : Bool}
    {code : ProviderCode} (handed : ¬(400 ≤ response.status ∧ response.status ≤ 599))
    (judged : FailsWith code (Api.judge response authenticated)) : code = .sourceUnavailable := by
  have differs {status : UInt16} (low : 400 ≤ status) (high : status ≤ 599) :
      response.status ≠ status := by
    rintro rfl
    exact handed ⟨low, high⟩
  have unauthorized : response.status ≠ 401 := differs (by decide) (by decide)
  have forbidden : response.status ≠ 403 := differs (by decide) (by decide)
  have missing : response.status ≠ 404 := differs (by decide) (by decide)
  have many : response.status ≠ 429 := differs (by decide) (by decide)
  have arm := (Api.judge_failsWith_iff.mp judged).2
  simpa only [unauthorized, forbidden, missing, many, or_self, false_and, if_false] using arm

theorem takes_code (documented : Documented) (serde : Faithful) (h : serving.Takes turn)
    {code : ProviderCode} {message : String} (output : turn.output = refuse code message)
    (other : code ∉ ownCodes) :
    code = .limitExceeded ∧
      ∃ last ∈ turn.exchanges.getLast?, ∃ reception body document, last.2 = some reception ∧
        200 ≤ reception.status ∧ reception.status ≤ 299 ∧
        reception.body.readToEnd = some body ∧ SerdeJson.fromSlice body.toList = .ok document ∧
        document.get "truncated" = some (.bool true) := by
  obtain ⟨inner, taken, seen⟩ := takes_serving.mp h
  have unavailable : code ≠ .sourceUnavailable := by
    rintro rfl
    exact other (by simp [ownCodes])
  obtain ⟨last, hlast, failed⟩ := ((takes_ending taken).refuses_iff serde other).mp
    ⟨message, output⟩
  obtain ⟨arrived, harrived, -, answered⟩ := last_related seen hlast
  obtain ⟨response, received, kinds⟩ := (verdict_failsWith_iff unavailable).mp failed
  rw [received] at answered
  obtain ⟨reception, hreception, handed, -, status, read⟩ :=
    received_eq_ok documented answered.symm
  rcases kinds with judged | ⟨limit, -, success, document, body, truncated⟩
  · rw [Reception.IsRefusal, ← status] at handed
    exact absurd (judged_unavailable handed judged) unavailable
  · rw [Api.Success, status] at success
    exact ⟨limit, arrived, harrived, reception, response.body, document, hreception, success.1,
      success.2, read, body, truncated⟩

/-- Before a network that behaves in any way at all: a 4xx or a 5xx makes the source
unavailable, whatever it said; no credential is ever asked for or blamed; and a limit is
reported of nothing but a listing that was cut short. -/
theorem codes_over_client (documented : Documented) (serde : Faithful) (h : serving.Takes turn) :
    CodesOverClient turn := by
  constructor
  · intro arrived
    obtain ⟨outer, houter, reception, arrival, refusal⟩ := arrived
    obtain ⟨inner, taken, seen⟩ := takes_serving.mp h
    obtain ⟨i, hi, -, answered⟩ := Api.exists_of_mem_forall₂ seen houter
    obtain ⟨reason, failed⟩ := received_lost documented (.inl refusal)
    rw [arrival, failed] at answered
    have refused : Api.accepted i.2 turn.input.credential.isSome =
        .error ⟨.sourceUnavailable, reason⟩ := by
      rw [answered]
      rfl
    exact ⟨_, Serve.takes_refused taken hi refused⟩
  · intro message output
    have limit := (takes_code documented serde h output (by simp [ownCodes])).1
    cases limit
  · intro message output
    have limit := (takes_code documented serde h output (by simp [ownCodes])).1
    cases limit
  · intro refused
    obtain ⟨message, output⟩ := refused
    exact (takes_code documented serde h output (by simp [ownCodes])).2

end

section

attribute [local instance] Json.compact Serve.sha2 documentedUreq

def resolved (arrival : Arrival) : WireTurn :=
  let request := (Serve.Call.resolve "github://o/r/a?ref=m").request none
  let played := (serving Serve.opening.after request).run (Interaction.fixed fun _ => arrival) ()
  ⟨Serve.opening.after, request, played.result.1, played.exchanges, played.result.2⟩

theorem codes_over_client_forbidden : CodesOverClient (resolved (some (bare 403))) :=
  codes_over_client documented_documentedUreq Serve.faithful_compact
    (Interaction.Machine.takes_run serving (Interaction.fixed fun _ => some (bare 403)) ()
      Serve.opening.after ((Serve.Call.resolve "github://o/r/a?ref=m").request none))

end

end GitHubProvider.Client
