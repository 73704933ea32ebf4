/- What becomes of content that is changed on its way to the caller. -/

import GitHubProvider.Main.Process

set_option autoImplicit false
set_option relaxedAutoImplicit false

namespace GitHubProvider.Main

open Client (Stream)
open Framing (Format)
open Http (Host)
open Interaction (Turn)
open Json (SerdeJson Value)
open Serve (Faithful Outcome Session SessionTurn Sha256 digest)
open Text (trimText)

theorem digest_eq_iff [Sha256] {content content' : List UInt8} :
    digest content = digest content' ↔ Sha256.finalize content = Sha256.finalize content' := by
  have written (bytes : List UInt8) :
      digest bytes = "sha256:" ++ String.ofList (Text.lowerHex (Sha256.finalize bytes)) := rfl
  rw [written, written, String.append_right_inj, String.ofList_inj]
  exact Text.lowerHex_injective.eq_iff

section

variable [Sha256]

/-- The caller's check of a frame: its own digest over the bytes it received is the one that is
stated. -/
def Agrees (frame : Value × List UInt8) : Prop :=
  frame.1.strAt "reply" = some "materialize" →
    frame.1.strAt "content_digest" = some (digest frame.2)

instance (frame : Value × List UInt8) : Decidable (Agrees frame) :=
  inferInstanceAs (Decidable (_ → _))

/-- A change of content is noticed unless there is no digest, or it is the same for both. -/
def Unnoticed (sent : Value × List UInt8) (content : Bytes) : Prop :=
  sent.1.strAt "reply" = some "materialize" →
    Sha256.finalize content.toList = Sha256.finalize sent.2

def withContent (sent : Value × List UInt8) (content : Bytes) : Value × List UInt8 :=
  (sent.1, content.toList)

def receivedAs (turn : SessionTurn) (content : Bytes) : List UInt8 :=
  match turn.output with
  | .reply line _ => frame line content
  | .done => []

def Fits (turn : SessionTurn) (content : Bytes) : Prop :=
  ∀ line sent, turn.output = .reply line sent → content.toList.length = sent.toList.length

omit [Sha256] in
theorem fits_of_output {turn : SessionTurn} {line : String} {sent content : Bytes}
    (output : turn.output = .reply line sent)
    (alike : content.toList.length = sent.toList.length) : Fits turn content := by
  intro line' sent' output'
  obtain ⟨-, rfl⟩ := Outcome.reply.inj (output.symm.trans output')
  exact alike

theorem agrees_withContent_iff {sent : Value × List UInt8} (agrees : Agrees sent)
    (content : Bytes) : Agrees (withContent sent content) ↔ Unnoticed sent content := by
  constructor
  · intro passes materialized
    have stated := (agrees materialized).symm.trans (passes materialized)
    exact (digest_eq_iff.mp (Option.some.inj stated)).symm
  · intro unnoticed materialized
    have same : digest sent.2 = digest content.toList :=
      digest_eq_iff.mpr (unnoticed materialized).symm
    exact (agrees materialized).trans (congrArg some same)

variable [SerdeJson]

theorem takes_received (serde : Faithful) {turn : SessionTurn} (h : Session.serving.Takes turn)
    (full : (trimText turn.input.line).isEmpty = false) {content : Bytes}
    (fits : Fits turn content) :
    ∃ sent, replyFormat.Encodes (chunk turn) sent ∧ Agrees sent ∧
      replyFormat.Encodes (receivedAs turn content) (withContent sent content) := by
  obtain ⟨sent, encodes, recovers⟩ := takes_recovers serde h full
  obtain ⟨line, body, output, -, same⟩ := recovers.reply
  have written : chunk turn = Text.encode line ++ replyFormat.delimiter :: sent.2 := by
    rw [chunk, output, same]
    rfl
  have received : receivedAs turn content =
      Text.encode line ++ replyFormat.delimiter :: content.toList := by
    rw [receivedAs, output]
    rfl
  have alike : content.toList.length = sent.2.length := by
    rw [fits line body output, same]
  refine ⟨sent, encodes, recovers.digest, ?_⟩
  rw [received]
  rw [written] at encodes
  exact encodes.replace alike

private theorem turns_received (serde : Faithful) {turns : List SessionTurn}
    {contents : List Bytes} (fits : List.Forall₂ Fits turns contents)
    (taken : ∀ turn ∈ turns, Session.serving.Takes turn)
    (full : ∀ turn ∈ turns, (trimText turn.input.line).isEmpty = false) :
    ∃ sent, List.Forall₂ replyFormat.Encodes (turns.map chunk) sent ∧
      List.Forall₂ replyFormat.Encodes (List.zipWith receivedAs turns contents)
        (List.zipWith withContent sent contents) ∧
      (∀ frame ∈ sent, Agrees frame) := by
  induction fits with
  | nil => exact ⟨[], .nil, .nil, by simp⟩
  | @cons turn content turns contents fit _ ih =>
      obtain ⟨first, encodes, agrees, received⟩ :=
        takes_received serde (taken turn List.mem_cons_self) (full turn List.mem_cons_self) fit
      obtain ⟨sent, encoded, arrived, agree⟩ := ih
        (fun later mem => taken later (List.mem_cons_of_mem _ mem))
        (fun later mem => full later (List.mem_cons_of_mem _ mem))
      exact ⟨first :: sent, .cons encodes encoded, .cons received arrived,
        List.forall_mem_cons.mpr ⟨agrees, agree⟩⟩

/-- The contents of a run may be changed on the way to any others of their lengths, all of them
at once: the caller reads the same replies, and its check passes for exactly those changes that
are unnoticed. -/
theorem process_received (serde : Faithful) {W : Type} (host : Host W) (world : W)
    (token : Option String) (stdin : Stream) {contents : List Bytes}
    (fits : List.Forall₂ Fits (dialogue host world token stdin) contents) :
    ∃ sent, replyFormat.unframe ((process token stdin).run host world).result.output = some sent ∧
      (∀ frame ∈ sent, Agrees frame) ∧
      replyFormat.unframe
          (List.zipWith receivedAs (dialogue host world token stdin) contents).flatten =
        some (List.zipWith withContent sent contents) ∧
      List.Forall₂ (fun frame content => Agrees (withContent frame content) ↔
        Unnoticed frame content) sent contents := by
  obtain ⟨final, chain⟩ := dialogue_chain host world token stdin
  obtain ⟨sent, encoded, arrived, agree⟩ :=
    turns_received serde fits chain.takes fun _ mem => dialogue_full mem
  have paired : sent.length = contents.length := by
    have frames := encoded.length_eq
    have turns := fits.length_eq
    rw [List.length_map] at frames
    omega
  refine ⟨sent, ?_, agree, Format.unframe_flatten arrived, ?_⟩
  · rw [process_output]
    exact Format.unframe_flatten encoded
  · refine List.forall₂_iff_zip.mpr ⟨paired, fun {frame content} mem => ?_⟩
    exact agrees_withContent_iff (agree frame (List.of_mem_zip mem).1) content

end

section

attribute [local instance] Json.compact Serve.sha2

def otherContents : List Bytes := [.empty, .empty, .empty, ⟨[121], by decide⟩, ⟨[121], by decide⟩]

private theorem fits_ordinary : List.Forall₂ Fits
    (dialogue Serve.recorded ordinaryAnswers none ⟨spoken ordinaryCalls, false⟩)
    otherContents := by
  rw [dialogue_ordinary]
  exact .cons (fits_of_output rfl rfl) (.cons (fits_of_output rfl rfl)
    (.cons (fits_of_output rfl rfl) (.cons (fits_of_output rfl rfl)
      (.cons (fits_of_output rfl rfl) .nil))))

theorem process_received_ordinary :
    ∃ sent, replyFormat.unframe ((process none ⟨spoken ordinaryCalls, false⟩).run Serve.recorded
        ordinaryAnswers).result.output = some sent ∧
      (∀ frame ∈ sent, Agrees frame) ∧
      replyFormat.unframe (List.zipWith receivedAs (dialogue Serve.recorded ordinaryAnswers none
          ⟨spoken ordinaryCalls, false⟩) otherContents).flatten =
        some (List.zipWith withContent sent otherContents) ∧
      List.Forall₂ (fun frame content => Agrees (withContent frame content) ↔
        Unnoticed frame content) sent otherContents :=
  process_received Serve.faithful_compact Serve.recorded ordinaryAnswers none _ fits_ordinary

end

end GitHubProvider.Main
