/- The output of a process, read back. -/

import GitHubProvider.Framing
import GitHubProvider.Main
import GitHubProvider.Serve.Calls

set_option autoImplicit false
set_option relaxedAutoImplicit false

namespace GitHubProvider.Main

open Framing (Format)
open Http (Answer Host)
open Interaction (Machine Program Turn)
open Json (SerdeJson Value)
open Serve (Call Faithful Reply Session SessionTurn Sha256 admission asked digest history refuse
  replyWith)
open Text (trimText)

section

variable [SerdeJson]

/-- How the output is read: a JSON object up to the newline, then as many bytes as it
states if it replies to a read or a materialize, and none otherwise. -/
def replyFormat : Format UInt8 Value where
  delimiter := 10
  header bytes := do
    let text ← Text.decode bytes
    let document ← SerdeJson.fromStr text
    if document.asObject.isSome then some document else none
  extent document :=
    if document.strAt "reply" = some "read" ∨ document.strAt "reply" = some "materialize" then
      ((document.get "bytes").bind Value.asU64).map UInt64.toNat
    else some 0

/-- The request lines that are answered: those before the first blank one. -/
def answered (lines : List String) : List String :=
  lines.takeWhile fun line => !(trimText line).isEmpty

variable [Sha256]

def Declares (content : Bytes) : Reply → Prop
  | .read bytes => bytes = content.len
  | .materialize bytes contentDigest => bytes = content.len ∧ contentDigest = digest content.toList
  | _ => content = .empty

/-- What is read back of a turn: its reply, its content, and the digest of it. -/
structure Recovers (turn : SessionTurn) (frame : Value × List UInt8) : Prop where
  reply : ∃ line content, turn.output = .reply line content ∧
    SerdeJson.fromStr line = some frame.1 ∧ frame.2 = content.toList
  digest : frame.1.strAt "reply" = some "materialize" →
    frame.1.strAt "content_digest" = some (digest frame.2)

omit [Sha256] in
private theorem admission_done_iff {handshaken : Bool} {line : String} :
    admission handshaken line = .error .done ↔ (trimText line).isEmpty = true := by
  constructor
  · intro done
    unfold admission at done
    dsimp only at done
    split at done
    · assumption
    split at done
    · cases done
    split at done
    · cases done
    split at done
    · split at done <;> cases done
    · cases done
  · intro blank
    rw [admission, if_pos blank]

theorem takes_declares {turn : SessionTurn} (h : Session.serving.Takes turn)
    (full : (trimText turn.input.line).isEmpty = false) :
    ∃ answer content, turn.output = replyWith answer content ∧ Declares content answer := by
  have refused (code : ProviderCode) (message : String) : ∃ answer content,
      refuse code message = replyWith answer content ∧ Declares content answer :=
    ⟨.error code message, .empty, rfl, rfl⟩
  have cases := Serve.takes_cases h
  generalize turn.after = after, turn.exchanges = exchanges, turn.output = output at cases ⊢
  cases cases with
  | refused ends =>
      rcases Serve.admission_error ends with rfl | ⟨code, message, rfl⟩
      · simp [admission_done_iff.mp ends] at full
      · exact refused code message
  | handshake => exact ⟨.handshake, .empty, rfl, rfl⟩
  | resolve _ cases =>
      cases cases with
      | unnamed | secret | unread | failed => exact refused _ _
      | resolved => exact ⟨.resolve _ _, .empty, rfl, rfl⟩
  | enumerate _ cases =>
      cases cases with
      | notResolved | failed => exact refused _ _
      | listed => exact ⟨.enumerate _, .empty, rfl, rfl⟩
  | read _ cases =>
      cases cases with
      | notResolved | unnamed | failed | absent | refused => exact refused _ _
      | answered => exact ⟨.read _, _, rfl, rfl⟩
  | materialize _ cases =>
      cases cases with
      | notResolved | root | failed | absent | refused => exact refused _ _
      | answered => exact ⟨.materialize _ _, _, rfl, rfl, rfl⟩
  | undefined | unnamed => exact refused _ _

def replyKind : Reply → String
  | .handshake => "handshake"
  | .resolve _ _ => "resolve"
  | .enumerate _ => "enumerate"
  | .read _ => "read"
  | .materialize _ _ => "materialize"
  | .error _ _ => "error"

omit [SerdeJson] [Sha256] in
theorem document_strAt_reply (answer : Reply) :
    answer.document.strAt "reply" = some (replyKind answer) := by
  cases answer <;> rfl

private theorem declared_extent {answer : Reply} {content : Bytes}
    (declares : Declares content answer) :
    replyFormat.extent answer.document = some content.toList.length := by
  simp only [replyFormat, document_strAt_reply, Option.some.injEq]
  cases answer with
  | read bytes =>
      have stated : ((Reply.read bytes).document.get "bytes").bind Value.asU64 = some bytes := rfl
      obtain rfl : bytes = content.len := declares
      simp [replyKind, stated]
  | materialize bytes contentDigest =>
      have stated : ((Reply.materialize bytes contentDigest).document.get "bytes").bind
          Value.asU64 = some bytes := rfl
      obtain ⟨rfl, -⟩ := declares
      simp [replyKind, stated]
  | handshake | resolve | enumerate | error =>
      obtain rfl : content = .empty := declares
      simp [replyKind]

theorem frame_encodes (serde : Faithful) {answer : Reply} {content : Bytes}
    (declares : Declares content answer) :
    replyFormat.Encodes (frame (SerdeJson.toString answer.document) content)
      (answer.document, content.toList) := by
  have object : answer.document.asObject.isSome = true := by
    cases answer <;> rfl
  refine ⟨⟨Text.encode (SerdeJson.toString answer.document), rfl,
    Text.newline_not_mem_encode (serde.newline_free answer), ?_⟩, ?_⟩
  · simp only [replyFormat, Text.decode_encode, Option.bind_eq_bind, Option.bind_some,
      serde.round_trip answer, object, if_true]
  · exact declared_extent declares

omit [SerdeJson] in
theorem declares_digest {answer : Reply} {content : Bytes} (declares : Declares content answer)
    (materialized : answer.document.strAt "reply" = some "materialize") :
    answer.document.strAt "content_digest" = some (digest content.toList) := by
  cases answer with
  | materialize bytes contentDigest =>
      obtain ⟨-, rfl⟩ := declares
      rfl
  | handshake | resolve | enumerate | read | error =>
      simp [document_strAt_reply, replyKind] at materialized

/-- What a turn adds to the output. -/
def chunk (turn : SessionTurn) : List UInt8 :=
  match turn.output with
  | .reply line content => frame line content
  | .done => []

theorem takes_recovers (serde : Faithful) {turn : SessionTurn} (h : Session.serving.Takes turn)
    (full : (trimText turn.input.line).isEmpty = false) :
    ∃ recovered, replyFormat.Encodes (chunk turn) recovered ∧ Recovers turn recovered := by
  obtain ⟨answer, content, output, declares⟩ := takes_declares h full
  refine ⟨(answer.document, content.toList), ?_, ?_, ?_⟩
  · rw [chunk, output]
    exact frame_encodes serde declares
  · exact ⟨_, content, output, serde.round_trip answer, rfl⟩
  · exact declares_digest declares

omit [SerdeJson] [Sha256] in
private theorem answered_cons {line : String} (full : (trimText line).isEmpty = false)
    (lines : List String) : answered (line :: lines) = line :: answered lines := by
  simp only [answered, List.takeWhile_cons, full, Bool.not_false, if_true]

private theorem answer_run {W : Type} (host : Host W) (world : W) (credential : Option String)
    (session : Session) (lines : List String) :
    ((answer credential session (lines.map some)).run host world).result.output =
      ((Session.serving.turns host world session (asked credential (answered lines))).map
        chunk).flatten := by
  induction lines generalizing world session with
  | nil => rfl
  | cons line lines ih =>
      rw [List.map_cons, answer, Program.run_bind]
      cases full : (trimText line).isEmpty with
      | true =>
          have ended : session.handle line credential = .done (.done, session) := by
            rw [Session.handle, admission_done_iff.mpr full]
            rfl
          simp [ended, answered, full, asked, Machine.turns, Program.run]
      | false =>
          have taken := Machine.takes_run Session.serving host world session ⟨line, credential⟩
          obtain ⟨reply, content, output, -⟩ := takes_declares taken full
          generalize hplayed : (Session.serving session ⟨line, credential⟩).run host world = played
            at output
          have run : (session.handle line credential).run host world = played := hplayed
          obtain ⟨⟨outcome, after⟩, exchanges, later⟩ := played
          obtain rfl : outcome = replyWith reply content := output
          have rest := ih later after
          rw [run, answered_cons full, asked, List.map_cons, Machine.turns, hplayed]
          simp only [replyWith, List.map_cons, List.flatten_cons, chunk, Program.run_bind, rest]
          rfl

omit [SerdeJson] [Sha256] in
theorem exists_forall₂ {α β : Type} {R : α → β → Prop} {xs : List α}
    (h : ∀ x ∈ xs, ∃ y, R x y) : ∃ ys, List.Forall₂ R xs ys := by
  induction xs with
  | nil => exact ⟨[], .nil⟩
  | cons x xs ih =>
      obtain ⟨y, hy⟩ := h x List.mem_cons_self
      obtain ⟨ys, hys⟩ := ih fun x hx => h x (List.mem_cons_of_mem _ hx)
      exact ⟨y :: ys, .cons hy hys⟩

omit [SerdeJson] [Sha256] in
theorem forall₂_trans {α β γ : Type} {R : α → β → Prop} {S : β → γ → Prop} {T : α → γ → Prop}
    (compose : ∀ x y z, R x y → S y z → T x z) {xs : List α} {ys : List β} {zs : List γ}
    (first : List.Forall₂ R xs ys) (second : List.Forall₂ S ys zs) : List.Forall₂ T xs zs := by
  induction first generalizing zs with
  | nil =>
      cases second
      exact .nil
  | cons related _ ih =>
      cases second with
      | cons related' second => exact .cons (compose _ _ _ related related') (ih second)

/-- For request lines that are all texts, and whatever the host sends: the output is
read back as one reply for each line before the first blank one, in order, each with
its own content, and nothing is left over. -/
theorem output_unframes (serde : Faithful) {W : Type} (host : Host W) (world : W)
    (token : Option String) (lines : List String) :
    ∃ frames, replyFormat.unframe ((main token (lines.map some)).run host world).result.output =
        some frames ∧
      List.Forall₂ Recovers (history host world (asked (credential token) (answered lines)))
        frames := by
  obtain ⟨final, chain⟩ :=
    Serve.history_chain host world (asked (credential token) (answered lines))
  have recovered : ∀ turn ∈ history host world (asked (credential token) (answered lines)),
      ∃ frame, replyFormat.Encodes (chunk turn) frame ∧ Recovers turn frame := by
    intro turn hturn
    have input : turn.input ∈ asked (credential token) (answered lines) := by
      have mem := List.mem_map_of_mem (f := Turn.input) hturn
      rwa [history, Machine.map_input_turns] at mem
    obtain ⟨line, hline, same⟩ := List.mem_map.mp input
    have full : (trimText turn.input.line).isEmpty = false := by
      rw [← same]
      simpa using List.mem_takeWhile_imp hline
    exact takes_recovers serde (chain.takes turn hturn) full
  obtain ⟨frames, related⟩ := exists_forall₂ recovered
  refine ⟨frames, ?_, related.imp fun _ _ h => h.2⟩
  rw [main, answer_run]
  exact Format.unframe_flatten (List.forall₂_map_left_iff.mpr (related.imp fun _ _ h => h.1))

end

section

attribute [local instance] Json.compact Serve.sha2

/-- A file whose content looks like a reply. -/
def imitation : Bytes := ⟨Serve.written (Reply.document .handshake) ++ [10], by decide +kernel⟩

def imitationLines : List String :=
  [Call.handshake.line, (Call.resolve "github://o/r/a?ref=m").line, (Call.materialize "c").line, "",
    Call.handshake.line]

def imitationAnswers : List Answer :=
  [Serve.found Serve.commitBody, Serve.found Serve.treeBody, Serve.found imitation]

theorem output_unframes_imitation :
    ∃ frames, replyFormat.unframe ((main none (imitationLines.map some)).run Serve.recorded
        imitationAnswers).result.output = some frames ∧
      List.Forall₂ Recovers (history Serve.recorded imitationAnswers
        (asked (credential none) (answered imitationLines))) frames :=
  output_unframes Serve.faithful_compact _ _ none imitationLines

end

end GitHubProvider.Main
