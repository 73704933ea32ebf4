/- What the process sends to the network, and what of it can be seen. -/

import GitHubProvider.Api.Targets
import GitHubProvider.Client.Answers
import GitHubProvider.Main.Process
import GitHubProvider.Serve.Secrecy
import GitHubProvider.Text.Url

set_option autoImplicit false
set_option relaxedAutoImplicit false

namespace GitHubProvider.Main

open Api (blobGet commitGet treeGet)
open Client (Arrival Sending Stream Ureq UreqClient)
open Http (Answer Get)
open Interaction (Agree Environment Program)
open Interaction.Program (Alike SameExchanges yields_bind yields_done)
open Json (SerdeJson)
open Serve (Session SessionTurn Sha256)
open Text (Url)

def ApiGet (credential : Option String) (get : Get) : Prop :=
  ∃ locator, get = commitGet locator credential ∨
    (∃ commit, get = treeGet locator commit credential) ∨
      ∃ blobId, get = blobGet locator blobId credential

/-- The request goes to the API host, under its repositories, with four headers at most,
one of them the token if there is one. -/
structure Confined (token : Option String) (sending : Sending) : Prop where
  scheme : (Url.read sending.url.toList).scheme = "https".toList
  authority : (Url.read sending.url.toList).authority = "api.github.com".toList
  path : "/repos/".toList <+: (Url.read sending.url.toList).path
  headers : ∃ accept ∈ [Api.jsonMediaType, Api.rawMediaType], sending.headers =
    [("accept", accept), ("user-agent", "nostdb-provider-github/0.1.6"),
      ("x-github-api-version", "2022-11-28")] ++
    (credential token).toList.map fun secret => ("authorization", "Bearer " ++ secret)

private theorem confined_url {url : String}
    (h : ∃ tail, url.toList = "https".toList ++ "://".toList ++ "api.github.com".toList ++
      '/' :: ("repos/".toList ++ tail)) :
    (Url.read url.toList).scheme = "https".toList ∧
      (Url.read url.toList).authority = "api.github.com".toList ∧
      "/repos/".toList <+: (Url.read url.toList).path := by
  obtain ⟨tail, h⟩ := h
  rw [h, Url.read_append _ (by decide) (by decide) (by decide) (by decide)]
  refine ⟨rfl, rfl, ?_⟩
  rw [Text.upTo_append_of_not_mem _ (by decide), Text.upTo_append_of_not_mem _ (by decide)]
  exact ⟨_, rfl⟩

theorem apiGet_confined {token : Option String} {get : Get}
    (h : ApiGet (credential token) get) : Confined token (UreqClient.new.sending get) := by
  obtain ⟨locator, rfl | ⟨commit, rfl⟩ | ⟨blobId, rfl⟩⟩ := h
  · obtain ⟨scheme, authority, path⟩ := @confined_url (Api.commitUrl locator)
      ⟨_, by simp [Api.commitUrl, Api.apiRoot, String.toList_append]; rfl⟩
    exact ⟨scheme, authority, path, Api.jsonMediaType, by simp, rfl⟩
  · obtain ⟨scheme, authority, path⟩ := @confined_url (Api.treeUrl locator commit)
      ⟨_, by simp [Api.treeUrl, Api.apiRoot, String.toList_append]; rfl⟩
    exact ⟨scheme, authority, path, Api.jsonMediaType, by simp, rfl⟩
  · obtain ⟨scheme, authority, path⟩ := @confined_url (Api.blobUrl locator blobId)
      ⟨_, by simp [Api.blobUrl, Api.apiRoot, String.toList_append]; rfl⟩
    exact ⟨scheme, authority, path, Api.rawMediaType, by simp, rfl⟩

section

variable [SerdeJson] [Sha256]

theorem takes_apiGet {turn : SessionTurn} (h : Session.serving.Takes turn) :
    ∀ e ∈ turn.exchanges, ApiGet turn.input.credential e.1 := by
  intro e he
  rcases Serve.takes_get h he with ⟨-, -, locator, -, -, -, -, commit⟩ |
    ⟨-, -, snapshot, locator, -, -, -, tree | ⟨-, -, entry, -, blob⟩⟩
  · exact ⟨locator, .inl commit⟩
  · exact ⟨locator, .inr (.inl ⟨snapshot, tree⟩)⟩
  · exact ⟨locator, .inr (.inr ⟨entry.blobId, blob⟩)⟩

theorem answer_apiGet {credential : Option String} {session : Session}
    {lines : List (Option String)} {exchanges : List (Get × Answer)} {exit : Exit}
    (h : (answer credential session lines).Yields exchanges exit) :
    ∀ e ∈ exchanges, ApiGet credential e.1 := by
  induction lines generalizing session exchanges exit with
  | nil =>
      obtain ⟨rfl, -⟩ := yields_done.mp h
      simp
  | cons line lines ih =>
      cases line with
      | none =>
          obtain ⟨rfl, -⟩ := yields_done.mp h
          simp
      | some line =>
          obtain ⟨first, later, ⟨outcome, after⟩, rfl, taken, rest⟩ := yields_bind.mp h
          have turn : Session.serving.Takes ⟨session, ⟨line, credential⟩, outcome, first, after⟩ :=
            taken
          have asked : ∀ e ∈ later, ApiGet credential e.1 := by
            cases outcome with
            | done =>
                obtain ⟨rfl, -⟩ := yields_done.mp rest
                simp
            | reply text content =>
                obtain ⟨more, nothing, exit', rfl, loop, ends⟩ := yields_bind.mp rest
                obtain ⟨rfl, -⟩ := yields_done.mp ends
                rw [List.append_nil]
                exact ih loop
          intro e he
          rcases List.mem_append.mp he with now | behind
          · exact takes_apiGet turn e now
          · exact asked e behind

variable [Ureq]

def processOverClient (token : Option String) (stdin : Stream) : Program Sending Arrival Exit :=
  mainOverClient token (lines stdin)

/-- Whatever the caller sends, whatever the network answers and whatever `ureq` makes of it:
every request goes to the API host, and carries the token it has in one header. -/
theorem process_confined {W : Type} (wire : Environment W Sending Arrival) (world : W)
    (token : Option String) (stdin : Stream) :
    ∀ e ∈ ((processOverClient token stdin).run wire world).exchanges, Confined token e.1 := by
  intro e he
  obtain ⟨inner, yields, seen⟩ := (Program.yields_interpret UreqClient.new.sending
    (fun arrival => UreqClient.received (Ureq.call UreqClient.new.agent arrival))).mp
    ((processOverClient token stdin).run_yields wire world)
  obtain ⟨i, hi, sent, -⟩ := Api.exists_of_mem_forall₂ seen he
  rw [sent]
  exact apiGet_confined (answer_apiGet yields i hi)

/-- What of a request is not secret, as it is sent with a token. -/
def sentWith (token : String) (request : String × String) : Sending :=
  UreqClient.new.sending (Serve.withCredential token request)

omit [Ureq] in
private theorem answer_alike {first second : String} (session : Session)
    (lines : List (Option String)) :
    Alike (Serve.withCredential first) (Serve.withCredential second)
      (answer (some first) session lines) (answer (some second) session lines) := by
  induction lines generalizing session with
  | nil => exact .done _
  | cons line lines ih =>
      cases line with
      | none => exact .done _
      | some line =>
          refine (session.handle_alike line).bind fun (outcome, after) => ?_
          cases outcome with
          | done => exact .done _
          | reply text content => exact (ih after).bind fun rest => .done _

/-- Two processes with two tokens, on networks that give the same answers to the same requests,
whatever token they carry: they write the same bytes, end the same way and ask for the same
URLs, in the same order. -/
theorem token_unseen {first second : String} (held : first ≠ "") (held' : second ≠ "")
    {W W' : Type} {wire : Environment W Sending Arrival} {wire' : Environment W' Sending Arrival}
    {world : W} {world' : W'}
    (agree : Agree (sentWith first) (sentWith second) wire wire' world world') (stdin : Stream) :
    ((processOverClient (some first) stdin).run wire world).result =
        ((processOverClient (some second) stdin).run wire' world').result ∧
      SameExchanges (sentWith first) (sentWith second)
        ((processOverClient (some first) stdin).run wire world).exchanges
        ((processOverClient (some second) stdin).run wire' world').exchanges := by
  have kept {token : String} (held : token ≠ "") : credential (some token) = some token := by
    simp [credential, Option.filter, held]
  have client (request : String × String) : Alike (sentWith first) (sentWith second)
      (UreqClient.new.get (Serve.withCredential first request))
      (UreqClient.new.get (Serve.withCredential second request)) :=
    .ask request fun arrival => .done _
  have alike : Alike (sentWith first) (sentWith second) (processOverClient (some first) stdin)
      (processOverClient (some second) stdin) := by
    unfold processOverClient mainOverClient main
    rw [kept held, kept held']
    exact (answer_alike .new (lines stdin)).interpret client
  obtain ⟨result, exchanges, -⟩ := alike.run agree
  exact ⟨result, exchanges⟩

end

section

attribute [local instance] Json.compact Serve.sha2 Client.documentedUreq

def recordedWire : Environment (List Arrival) Sending Arrival := Interaction.replay none

theorem process_confined_recorded :
    ∃ e ∈ ((processOverClient (some "one")
        ⟨spoken [.handshake, .resolve "github://o/r/a?ref=m"], false⟩).run recordedWire
          []).exchanges, Confined (some "one") e.1 := by
  have asks : 0 < ((processOverClient (some "one")
      ⟨spoken [.handshake, .resolve "github://o/r/a?ref=m"], false⟩).run recordedWire
        []).exchanges.length := by
    rw [processOverClient, lines_spoken]
    decide +kernel
  obtain ⟨e, he⟩ := List.exists_mem_of_length_pos asks
  exact ⟨e, he, process_confined recordedWire [] (some "one") _ e he⟩

private theorem recordedWire_agree (first second : String) (arrivals : List Arrival) :
    Agree (sentWith first) (sentWith second) recordedWire recordedWire arrivals arrivals := by
  intro questions
  induction questions generalizing arrivals with
  | nil => rfl
  | cons question questions ih => exact congrArg (arrivals.headD none :: ·) (ih arrivals.tail)

theorem token_unseen_recorded :
    let stdin : Stream := ⟨spoken [.handshake, .resolve "github://o/r/a?ref=m"], false⟩
    let arrivals : List Arrival := [some ⟨200, [], ⟨Serve.commitBody.toList, false⟩⟩]
    ((processOverClient (some "one") stdin).run recordedWire arrivals).result =
        ((processOverClient (some "other") stdin).run recordedWire arrivals).result ∧
      SameExchanges (sentWith "one") (sentWith "other")
        ((processOverClient (some "one") stdin).run recordedWire arrivals).exchanges
        ((processOverClient (some "other") stdin).run recordedWire arrivals).exchanges :=
  token_unseen (by decide) (by decide) (recordedWire_agree "one" "other" _) _

end

end GitHubProvider.Main
