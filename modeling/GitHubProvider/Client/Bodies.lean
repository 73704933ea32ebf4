/- Which bodies arrive whole. -/

import GitHubProvider.Client.Answers

set_option autoImplicit false
set_option relaxedAutoImplicit false

namespace GitHubProvider.Client

open Api (accepted blobGet)
open Http (Response)
open Json (SerdeJson Value)
open Serve (Outcome Reply Session Sha256 admission digest refuse replyWith)

/-- There is more of the body behind the limit: more bytes arrive, or reading breaks
off there before the body has ended. -/
def Stream.Exceeds (body : Stream) : Prop :=
  maxResponseBytes < body.bytes.length ∨
    body.bytes.length = maxResponseBytes ∧ body.fails = true

def delivered [Sha256] (kind : String) (content : Bytes) : Reply :=
  if kind = "read" then .read content.len
  else .materialize content.len (digest content.toList)

def Refused [SerdeJson] (outcome : Outcome) : Prop := ∃ code message, outcome = refuse code message

/-- A request for a file is refused or answered with the whole of what the host sent
for its blob, and an answer that does not fit is an error and ends in a refusal. -/
structure NothingShortened [SerdeJson] [Sha256] [Ureq] (kind : String) (turn : WireTurn) :
    Prop where
  whole : Refused turn.output ∨ ∃ locator blobId reception content,
    (UreqClient.new.sending (blobGet locator blobId turn.input.credential), some reception) ∈
        turn.exchanges ∧
      reception.body.fails = false ∧ content.toList = reception.body.bytes ∧
      turn.output = replyWith (delivered kind content) content
  oversize : ∀ e ∈ turn.exchanges, ∀ reception, e.2 = some reception → reception.body.Exceeds →
    (∃ reason, UreqClient.received (Ureq.call UreqClient.new.agent e.2) = .error reason) ∧
      Refused turn.output

private theorem readToEnd_eq_some_iff {body : Stream} {content : Bytes} :
    body.readToEnd = some content ↔
      ¬ (body.fails = true ∧ body.bytes.length < maxResponseBytes) ∧
        content.toList = body.bytes.take maxResponseBytes := by
  unfold Stream.readToEnd
  split_ifs with broken
  · exact iff_of_false (fun h => nomatch h) fun h => h.1 broken
  · rw [Option.some.injEq, Bytes.ext_iff]
    exact ⟨fun h => ⟨broken, h.symm⟩, fun h => h.2.symm⟩

private theorem readToEnd_whole {body : Stream} {content : Bytes}
    (read : body.readToEnd = some content) (fits : ¬ body.Exceeds) :
    body.fails = false ∧ content.toList = body.bytes := by
  obtain ⟨sound, bytes⟩ := readToEnd_eq_some_iff.mp read
  have short : body.bytes.length ≤ maxResponseBytes := by
    by_contra long
    exact fits (.inl (by omega))
  have ended : body.fails = false := by
    by_contra broken
    rw [Bool.not_eq_false] at broken
    have reaches : ¬ body.bytes.length < maxResponseBytes := fun less => sound ⟨broken, less⟩
    exact fits (.inr ⟨by omega, broken⟩)
  exact ⟨ended, by rw [bytes, List.take_of_length_le short]⟩

section

variable [Ureq]

private theorem received_exceeding (documented : Documented) {reception : Reception}
    (exceeds : reception.body.Exceeds)
    (delivered : Ureq.delivers UreqClient.new.agent reception = true)
    (response : ¬ reception.IsRefusal) :
    ∃ shortened, UreqClient.received (Ureq.call UreqClient.new.agent (some reception)) =
      .ok shortened := by
  have reaches : ¬ (reception.body.fails = true ∧
      reception.body.bytes.length < maxResponseBytes) := by
    rcases exceeds with long | ⟨exact, -⟩ <;> omega
  rw [received_response documented delivered response]
  simp only [UreqClient.received, Stream.readToEnd, if_neg reaches]
  exact ⟨_, rfl⟩

variable [SerdeJson] [Sha256] {turn : WireTurn} {document : Value} {kind : String}

omit [Ureq] in
private theorem takes_delivered {turn : Serve.SessionTurn} (h : Session.serving.Takes turn)
    (admitted : admission turn.before.handshaken turn.input.line = .ok (document, some kind))
    (hkind : kind ∈ ["read", "materialize"]) :
    Refused turn.output ∨ ∃ locator blobId response,
      (blobGet locator blobId turn.input.credential, .ok response) ∈ turn.exchanges ∧
        turn.output = replyWith (delivered kind response.body) response.body := by
  simp only [List.mem_cons, List.not_mem_nil, or_false] at hkind
  rcases hkind with rfl | rfl
  · have cases := Serve.takes_read h admitted
    generalize turn.after = after, turn.output = output, turn.exchanges = exchanges at cases ⊢
    cases cases with
    | notResolved | unnamed | failed | absent | refused => exact .inl ⟨_, _, rfl⟩
    | answered _ _ _ _ judged =>
        obtain ⟨rfl, -⟩ := Api.accepted_eq_ok_iff.mp judged
        exact .inr ⟨_, _, _, List.mem_append_right _ List.mem_cons_self, rfl⟩
  · have cases := (Serve.takes_materialize h admitted).1
    generalize turn.output = output, turn.exchanges = exchanges at cases ⊢
    cases cases with
    | notResolved | root | failed | absent | refused => exact .inl ⟨_, _, rfl⟩
    | answered _ _ _ _ judged =>
        obtain ⟨rfl, -⟩ := Api.accepted_eq_ok_iff.mp judged
        exact .inr ⟨_, _, _, List.mem_cons_of_mem _ List.mem_cons_self, rfl⟩

/-- In any state of the session, whatever the host streams: a read or a materialize
shortens nothing exactly if no answer to it goes on behind the limit, refusals and what `ureq`
cannot deliver apart. -/
theorem nothing_shortened_iff (documented : Documented) (taken : serving.Takes turn)
    (admitted : admission turn.before.handshaken turn.input.line = .ok (document, some kind))
    (hkind : kind ∈ ["read", "materialize"]) :
    NothingShortened kind turn ↔
      ∀ e ∈ turn.exchanges, ∀ reception, e.2 = some reception → reception.body.Exceeds →
        reception.IsRefusal ∨ Ureq.delivers UreqClient.new.agent reception = false := by
  obtain ⟨inner, taken, seen⟩ := takes_serving.mp taken
  constructor
  · intro nothing e he reception arrived exceeds
    obtain ⟨⟨reason, failed⟩, -⟩ := nothing.oversize e he reception arrived exceeds
    by_contra kept
    obtain ⟨response, delivered⟩ := not_or.mp kept
    rw [Bool.not_eq_false] at delivered
    obtain ⟨shortened, received⟩ := received_exceeding documented exceeds delivered response
    rw [arrived, received] at failed
    cases failed
  · intro fits
    refine ⟨?_, ?_⟩
    · rcases takes_delivered taken admitted hkind with
        refused | ⟨locator, blobId, response, hi, output⟩
      · exact .inl refused
      obtain ⟨⟨sent, arrival⟩, ho, hsent, received⟩ := Api.exists_of_mem_forall₂ seen.flip hi
      obtain rfl : sent = _ := hsent
      obtain ⟨reception, rfl, handed, delivered, -, read⟩ :=
        received_eq_ok documented received.symm
      have within : ¬ reception.body.Exceeds := by
        intro exceeds
        rcases fits _ ho reception rfl exceeds with refusal | undelivered
        · exact handed refusal
        · rw [delivered] at undelivered
          cases undelivered
      obtain ⟨ended, bytes⟩ := readToEnd_whole read within
      exact .inr ⟨locator, blobId, reception, response.body, ho, ended, bytes, output⟩
    · intro e he reception arrived exceeds
      obtain ⟨reason, failed⟩ := received_lost documented (fits e he reception arrived exceeds)
      rw [← arrived] at failed
      obtain ⟨i, hi, -, answered⟩ := Api.exists_of_mem_forall₂ seen he
      have refused : accepted i.2 turn.input.credential.isSome =
          .error ⟨.sourceUnavailable, reason⟩ := by
        rw [answered, failed]
        rfl
      exact ⟨⟨reason, failed⟩, _, _, Serve.takes_refused taken hi refused⟩

end

section

attribute [local instance] Json.compact Serve.sha2 documentedUreq

def wireReading (body : Stream) (content : Bytes) : WireTurn where
  before := Serve.enumerating.after
  input := (Serve.Call.read "c" "a").request none
  output := replyWith (.read content.len) content
  exchanges := [(UreqClient.new.sending (blobGet Serve.parent "b" none), some ⟨200, [], body⟩)]
  after := Serve.enumerating.after

private theorem takes_wireReading {body : Stream} {content : Bytes}
    (read : body.readToEnd = some content) : serving.Takes (wireReading body content) := by
  have inner : Session.serving.Takes
      (Serve.readTurn Serve.enumerating.after none "c" Serve.parent Serve.file content) :=
    Serve.takes_readTurn rfl rfl rfl rfl
  have handed : ¬ (Reception.mk 200 [] body).IsRefusal := by
    simp only [Reception.IsRefusal]
    decide
  have answered : Serve.found content =
      UreqClient.received (Ureq.call UreqClient.new.agent (some ⟨200, [], body⟩)) := by
    rw [received_response documented_documentedUreq rfl handed]
    simp only [UreqClient.received, read]
    rfl
  exact takes_serving.mpr ⟨_, inner, .cons ⟨rfl, answered⟩ .nil⟩

theorem nothing_shortened_small :
    serving.Takes (wireReading ⟨[120], false⟩ Serve.fileBody) ∧
      (NothingShortened "read" (wireReading ⟨[120], false⟩ Serve.fileBody) ↔
        ∀ e ∈ (wireReading ⟨[120], false⟩ Serve.fileBody).exchanges, ∀ reception,
          e.2 = some reception → reception.body.Exceeds →
            reception.IsRefusal ∨ Ureq.delivers UreqClient.new.agent reception = false) := by
  have taken : serving.Takes (wireReading ⟨[120], false⟩ Serve.fileBody) := takes_wireReading rfl
  exact ⟨taken, nothing_shortened_iff documented_documentedUreq taken
    ((Serve.Call.read "c" "a").admission_line (.inr rfl)) (by simp)⟩

def long : Stream := ⟨List.replicate (maxResponseBytes + 1) 120, false⟩

def shortened : Bytes := ⟨List.replicate maxResponseBytes 120, by
  rw [List.length_replicate]
  decide⟩

/-- A read of a file of one byte too many is answered with all bytes but the last. -/
theorem shortened_read :
    serving.Takes (wireReading long shortened) ∧
      ¬ NothingShortened "read" (wireReading long shortened) := by
  have read : long.readToEnd = some shortened := by
    refine readToEnd_eq_some_iff.mpr ⟨by simp [long], ?_⟩
    rw [long, shortened, List.take_replicate, Nat.min_eq_left (Nat.le_succ _)]
  have exceeds : long.Exceeds := by
    left
    rw [long, List.length_replicate]
    exact Nat.lt_succ_self _
  refine ⟨takes_wireReading read, fun nothing => ?_⟩
  obtain ⟨⟨reason, failed⟩, -⟩ := nothing.oversize _ List.mem_cons_self _ rfl exceeds
  have handed : ¬ (Reception.mk 200 [] long).IsRefusal := by
    simp only [Reception.IsRefusal]
    decide
  obtain ⟨shortened, received⟩ := received_exceeding documented_documentedUreq exceeds rfl handed
  rw [received] at failed
  cases failed

end

end GitHubProvider.Client
