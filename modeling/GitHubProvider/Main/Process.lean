/- The process from the bytes it reads to the bytes it writes. -/

import GitHubProvider.Main.Stream
import GitHubProvider.Serve.Endings

set_option autoImplicit false
set_option relaxedAutoImplicit false

namespace GitHubProvider.Main

open Client (Stream)
open Framing (Format)
open Http (Answer Host Net)
open Interaction (Machine Program Turn)
open Json (SerdeJson Value)
open Serve (Call Faithful Outcome Reply Session SessionTurn Sha256 admission asked history kindOf
  reply refuse replyWith)
open Text (trimText)

/-- A carriage return before the newline belongs to the end of the line. -/
def withoutReturn (line : List UInt8) : List UInt8 :=
  if line.getLast? = some 13 then line.dropLast else line

/-- The rest of the lines, when a line has been begun with these bytes. A line that is not
UTF-8 cannot be handed over, nor one in which reading fails. -/
def linesFrom (fails : Bool) (begun : List UInt8) : List UInt8 → List (Option String)
  | [] =>
      if fails then [none]
      else if begun.isEmpty then []
      else [Text.decode begun]
  | byte :: bytes =>
      if byte = 10 then Text.decode (withoutReturn begun) :: linesFrom fails [] bytes
      else linesFrom fails (begun ++ [byte]) bytes

/-- `BufRead::lines`. -/
def lines (stdin : Stream) : List (Option String) := linesFrom stdin.fails [] stdin.bytes

/-- The lines that the loop answers: up to the first that is blank or cannot be read. -/
def heard : List (Option String) → List String
  | some line :: lines => if (trimText line).isEmpty then [] else line :: heard lines
  | _ => []

theorem linesFrom_append {line : List UInt8} (single : 10 ∉ line) (fails : Bool)
    (begun rest : List UInt8) :
    linesFrom fails begun (line ++ 10 :: rest) =
      Text.decode (withoutReturn (begun ++ line)) :: linesFrom fails [] rest := by
  induction line generalizing begun with
  | nil => simp [linesFrom]
  | cons byte line ih =>
      obtain ⟨other, single⟩ := not_or.mp (mt List.mem_cons.mpr single)
      rw [List.cons_append, linesFrom, if_neg (Ne.symm other), ih single, List.append_assoc]
      rfl

theorem linesFrom_ended (fails : Bool) (begun bytes rest : List UInt8) :
    linesFrom fails begun (bytes ++ 10 :: rest) =
      linesFrom false begun (bytes ++ [10]) ++ linesFrom fails [] rest := by
  induction bytes generalizing begun with
  | nil => simp [linesFrom]
  | cons byte bytes ih =>
      rw [List.cons_append, List.cons_append, linesFrom, linesFrom]
      split
      · rw [ih, List.cons_append]
      · exact ih _

theorem heard_append (first more : List (Option String)) :
    ∃ later, heard (first ++ more) = heard first ++ later := by
  induction first with
  | nil => exact ⟨heard more, rfl⟩
  | cons line first ih =>
      obtain ⟨later, rest⟩ := ih
      cases line with
      | none => exact ⟨[], rfl⟩
      | some line =>
          cases blank : (trimText line).isEmpty with
          | true => exact ⟨[], by simp [heard, blank]⟩
          | false => exact ⟨later, by simp [heard, blank, rest]⟩

section

variable [SerdeJson] [Sha256]

def process (token : Option String) (stdin : Stream) : Net Exit := main token (lines stdin)

def dialogue {W : Type} (host : Host W) (world : W) (token : Option String) (stdin : Stream) :
    List SessionTurn :=
  history host world (asked (credential token) (heard (lines stdin)))

omit [SerdeJson] [Sha256] in
theorem heard_cons {line : String} (full : (trimText line).isEmpty = false)
    (lines : List (Option String)) : heard (some line :: lines) = line :: heard lines := by
  simp only [heard, full, Bool.false_eq_true, if_false]

theorem handle_blank {line : String} (blank : (trimText line).isEmpty = true)
    (session : Session) (credential : Option String) :
    session.handle line credential = .done (.done, session) := by
  rw [Session.handle, admission, if_pos blank]
  rfl

theorem handle_full_run {W : Type} (host : Host W) (world : W) (credential : Option String)
    (session : Session) {line : String} (full : (trimText line).isEmpty = false) :
    ∃ reply content exchanges after later, (session.handle line credential).run host world =
      ⟨(replyWith reply content, after), exchanges, later⟩ := by
  have taken := Machine.takes_run Session.serving host world session ⟨line, credential⟩
  obtain ⟨reply, content, output, -⟩ := takes_declares taken full
  generalize hplayed : (Session.serving session ⟨line, credential⟩).run host world = played
    at output
  have run : (session.handle line credential).run host world = played := hplayed
  obtain ⟨⟨outcome, after⟩, exchanges, later⟩ := played
  obtain rfl : outcome = replyWith reply content := output
  exact ⟨reply, content, exchanges, after, later, run⟩

private theorem loop_run {W : Type} (host : Host W) (world : W) (credential : Option String)
    (session : Session) (lines : List (Option String)) :
    ((answer credential session lines).run host world).result =
        ⟨((Session.serving.turns host world session (asked credential (heard lines))).map
            chunk).flatten,
          if lines[(heard lines).length]? = some none then 9 else 0⟩ ∧
      ((answer credential session lines).run host world).exchanges =
        (Session.serving.turns host world session (asked credential (heard lines))).flatMap
          Turn.exchanges := by
  induction lines generalizing world session with
  | nil => exact ⟨rfl, rfl⟩
  | cons line lines ih =>
      cases line with
      | none => exact ⟨rfl, rfl⟩
      | some line =>
          cases full : (trimText line).isEmpty with
          | true =>
              have silent : heard (some line :: lines) = [] := by
                simp only [heard, full, if_true]
              rw [silent, answer, handle_blank full]
              exact ⟨rfl, rfl⟩
          | false =>
              obtain ⟨reply, content, exchanges, after, later, run⟩ :=
                handle_full_run host world credential session full
              have played : (Session.serving session ⟨line, credential⟩).run host world =
                ⟨(replyWith reply content, after), exchanges, later⟩ := run
              obtain ⟨result, asks⟩ := ih later after
              rw [heard_cons full, asked, List.map_cons, Machine.turns, played, answer,
                Program.run_bind, run]
              simp only [replyWith, Program.run_bind, result, asks, List.map_cons,
                List.flatten_cons, chunk, List.length_cons, List.getElem?_cons_succ,
                List.flatMap_cons, asked]
              exact ⟨rfl, by simp [Program.run]⟩

omit [SerdeJson] [Sha256] in
private theorem heard_full {lines : List (Option String)} {line : String}
    (h : line ∈ heard lines) : (trimText line).isEmpty = false := by
  induction lines with
  | nil => cases h
  | cons first lines ih =>
      cases first with
      | none => cases h
      | some first =>
          cases full : (trimText first).isEmpty with
          | true => simp [heard, full] at h
          | false =>
              rw [heard_cons full, List.mem_cons] at h
              rcases h with rfl | later
              · exact full
              · exact ih later

theorem dialogue_lines {W : Type} (host : Host W) (world : W) (token : Option String)
    (stdin : Stream) :
    (dialogue host world token stdin).map (fun turn => turn.input.line) =
      heard (lines stdin) := by
  have inputs : (dialogue host world token stdin).map Turn.input =
      asked (credential token) (heard (lines stdin)) := by
    rw [dialogue, history, Machine.map_input_turns]
  have texts := congrArg (List.map Serve.Request.line) inputs
  simpa only [asked, List.map_map, Function.comp_def, List.map_id'] using texts

theorem dialogue_full {W : Type} {host : Host W} {world : W} {token : Option String}
    {stdin : Stream} {turn : SessionTurn} (h : turn ∈ dialogue host world token stdin) :
    (trimText turn.input.line).isEmpty = false := by
  have said : turn.input.line ∈ heard (lines stdin) := by
    rw [← dialogue_lines host world token stdin]
    exact List.mem_map_of_mem h
  exact heard_full said

theorem dialogue_chain {W : Type} (host : Host W) (world : W) (token : Option String)
    (stdin : Stream) :
    ∃ final, Session.serving.Chain .new (dialogue host world token stdin) final :=
  Serve.history_chain host world _

theorem process_output {W : Type} (host : Host W) (world : W) (token : Option String)
    (stdin : Stream) : ((process token stdin).run host world).result.output =
      ((dialogue host world token stdin).map chunk).flatten :=
  congrArg Exit.output (loop_run host world (credential token) .new (lines stdin)).1

theorem dialogue_encodes (serde : Faithful) {W : Type} (host : Host W) (world : W)
    (token : Option String) (stdin : Stream) :
    ∃ frames, List.Forall₂ (fun turn frame => replyFormat.Encodes (chunk turn) frame)
        (dialogue host world token stdin) frames ∧
      List.Forall₂ Recovers (dialogue host world token stdin) frames := by
  obtain ⟨final, chain⟩ := dialogue_chain host world token stdin
  obtain ⟨frames, related⟩ := exists_forall₂ fun turn hturn =>
    takes_recovers serde (chain.takes turn hturn) (dialogue_full hturn)
  exact ⟨frames, related.imp fun _ _ h => h.1, related.imp fun _ _ h => h.2⟩

/-- Whatever bytes come in, and whatever the host sends: what comes out is read back as one
reply for each line heard, each with its own content. The process fails exactly if the line
it stops at cannot be read, and it asks nothing that no request asks. -/
theorem process_answers (serde : Faithful) {W : Type} (host : Host W) (world : W)
    (token : Option String) (stdin : Stream) :
    (∃ frames, replyFormat.unframe ((process token stdin).run host world).result.output =
        some frames ∧ List.Forall₂ Recovers (dialogue host world token stdin) frames) ∧
      ((process token stdin).run host world).result.code =
        (if (lines stdin)[(heard (lines stdin)).length]? = some none then 9 else 0) ∧
      ((process token stdin).run host world).exchanges =
        (dialogue host world token stdin).flatMap Turn.exchanges := by
  obtain ⟨result, asks⟩ := loop_run host world (credential token) .new (lines stdin)
  obtain ⟨frames, encoded, recovered⟩ := dialogue_encodes serde host world token stdin
  refine ⟨⟨frames, ?_, recovered⟩, congrArg Exit.code result, asks⟩
  rw [process_output]
  exact Format.unframe_flatten (List.forall₂_map_left_iff.mpr encoded)

/-- A caller that receives the output only up to some byte, wherever that is, reads replies
from it that are whole and the first ones, or cannot read it. -/
theorem process_cut (serde : Faithful) {W : Type} (host : Host W) (world : W)
    (token : Option String) (stdin : Stream) {count : Nat} {found : List (Value × List UInt8)}
    (read : replyFormat.unframe
      (((process token stdin).run host world).result.output.take count) = some found) :
    ∃ whole, List.Forall₂ Recovers ((dialogue host world token stdin).take whole) found ∧
      ((process token stdin).run host world).result.output.take count =
        (((dialogue host world token stdin).take whole).map chunk).flatten := by
  obtain ⟨frames, encoded, recovered⟩ := dialogue_encodes serde host world token stdin
  rw [process_output] at read ⊢
  obtain ⟨whole, rfl, same⟩ := Format.unframe_take (List.forall₂_map_left_iff.mpr encoded) read
  refine ⟨whole, List.forall₂_take whole recovered, ?_⟩
  rw [same, List.map_take]

/-- What is written for the lines that have ended does not wait for what follows them, nor
change with it. -/
theorem process_online {W : Type} (host : Host W) (world : W) (token : Option String)
    (ended rest : List UInt8) (fails : Bool) :
    ((process token ⟨ended ++ [10], false⟩).run host world).result.output <+:
      ((process token ⟨ended ++ 10 :: rest, fails⟩).run host world).result.output := by
  have cut : lines ⟨ended ++ 10 :: rest, fails⟩ =
      lines ⟨ended ++ [10], false⟩ ++ linesFrom fails [] rest := linesFrom_ended fails [] ended rest
  obtain ⟨later, heard_both⟩ :=
    heard_append (lines ⟨ended ++ [10], false⟩) (linesFrom fails [] rest)
  have split : asked (credential token) (heard (lines ⟨ended ++ [10], false⟩) ++ later) =
      asked (credential token) (heard (lines ⟨ended ++ [10], false⟩)) ++
        asked (credential token) later := List.map_append
  obtain ⟨world', session', both⟩ := Machine.turns_append Session.serving host world .new
    (asked (credential token) (heard (lines ⟨ended ++ [10], false⟩)))
    (asked (credential token) later)
  rw [process, process, main, main, (loop_run host world _ _ _).1, (loop_run host world _ _ _).1,
    cut, heard_both, split]
  dsimp only
  rw [both, List.map_append, List.flatten_append]
  exact List.prefix_append _ _

theorem takes_replyKind (serde : Faithful) {turn : SessionTurn} (h : Session.serving.Takes turn)
    {answer : Reply} {content : Bytes} (output : turn.output = replyWith answer content) :
    replyKind answer = "error" ∨
      kindOf turn.before turn.input.line = some (replyKind answer) := by
  have error {code : ProviderCode} {message : String}
      (refused : turn.output = refuse code message) : replyKind answer = "error" := by
    obtain ⟨rfl, -⟩ := serde.replyWith_inj.mp (output.symm.trans refused)
    rfl
  have kind {served : Reply} {bytes : Bytes} {document : Value}
      (replied : turn.output = replyWith served bytes)
      (admitted : admission turn.before.handshaken turn.input.line =
        .ok (document, some (replyKind served))) :
      kindOf turn.before turn.input.line = some (replyKind answer) := by
    obtain ⟨rfl, -⟩ := serde.replyWith_inj.mp (output.symm.trans replied)
    exact Serve.kindOf_admitted admitted
  have cases := Serve.takes_cases h
  generalize turn.after = after, turn.exchanges = exchanges, ends : turn.output = outcome at cases
  cases cases with
  | refused refused =>
      rcases Serve.admission_error refused with rfl | ⟨code, message, rfl⟩
      · rw [output] at ends
        cases ends
      · exact .inl (error ends)
  | handshake admitted => exact .inr (kind ends admitted)
  | resolve admitted cases =>
      cases cases with
      | unnamed | secret | unread | failed => exact .inl (error ends)
      | resolved => exact .inr (kind ends admitted)
  | enumerate admitted cases =>
      cases cases with
      | notResolved | failed => exact .inl (error ends)
      | listed => exact .inr (kind ends admitted)
  | read admitted cases =>
      cases cases with
      | notResolved | unnamed | failed | absent | refused => exact .inl (error ends)
      | answered => exact .inr (kind ends admitted)
  | materialize admitted cases =>
      cases cases with
      | notResolved | root | failed | absent | refused => exact .inl (error ends)
      | answered => exact .inr (kind ends admitted)
  | undefined | unnamed => exact .inl (error ends)

/-- A frame that answers a call, with what it asks for or with an error. -/
structure AnswersCall (call : Call) (frame : Value × List UInt8) : Prop where
  version : frame.1.get "provider_protocol_version" = some Serve.version
  kind : frame.1.strAt "reply" = some call.kind ∨
    frame.1.strAt "reply" = some "error" ∧ frame.2 = [] ∧
      ∃ code : ProviderCode, frame.1.strAt "code" = some code.asStr

omit [Sha256] in
private theorem kindOf_written {session : Session} {call : Call} {line kind : String}
    (written : call.Written line) (named : kindOf session line = some kind) :
    kind = call.kind := by
  rw [kindOf] at named
  by_cases ready : call.kind ≠ "handshake" ∧ session.handshaken = false
  · obtain ⟨other, early⟩ := ready
    rw [early, Serve.admission_unready (written.admitted (.inr rfl)) other] at named
    cases named
  · have shaken : call = .handshake ∨ session.handshaken = true := by
      by_contra neither
      obtain ⟨other, early⟩ := not_or.mp neither
      refine ready ⟨?_, by simpa using early⟩
      cases call <;> simp_all [Call.kind]
    rw [written.admitted shaken] at named
    exact (Option.some.inj named).symm

private theorem recovers_answersCall (serde : Faithful) {call : Call} {turn : SessionTurn}
    {frame : Value × List UInt8} (taken : Session.serving.Takes turn)
    (written : call.Written turn.input.line) (recovers : Recovers turn frame) :
    AnswersCall call frame := by
  obtain ⟨answer, content, output, declares⟩ := takes_declares taken written.full
  obtain ⟨text, bytes, output', read, body⟩ := recovers.reply
  obtain ⟨rfl, rfl⟩ := Outcome.reply.inj (output.symm.trans output')
  have document : frame.1 = answer.document :=
    (Option.some.inj ((serde.round_trip answer).symm.trans read)).symm
  constructor
  · rw [document]
    cases answer <;> rfl
  · rw [document, document_strAt_reply]
    rcases takes_replyKind serde taken output with error | kind
    · right
      cases answer with
      | error code message =>
          obtain rfl : content = .empty := declares
          exact ⟨rfl, body, code, rfl⟩
      | handshake | resolve | enumerate | read | materialize => simp [replyKind] at error
    · left
      rw [kindOf_written written kind]

omit [Sha256] in
private theorem heard_written {calls : List Call} {texts : List String}
    (written : List.Forall₂ Call.Written calls texts) : heard (texts.map some) = texts := by
  induction written with
  | nil => rfl
  | cons first _ ih => rw [List.map_cons, heard_cons first.full, ih]

/-- Whatever calls are sent, in whatever order, and whatever the host sends back: the process
succeeds, and its output is read as one frame for each call that answers it. -/
theorem conversation (serde : Faithful) {W : Type} (host : Host W) (world : W)
    (token : Option String) {stdin : Stream} {calls : List Call} {texts : List String}
    (sent : lines stdin = texts.map some) (written : List.Forall₂ Call.Written calls texts) :
    ∃ frames, replyFormat.unframe ((process token stdin).run host world).result.output =
        some frames ∧
      List.Forall₂ AnswersCall calls frames ∧
      ((process token stdin).run host world).result.code = 0 := by
  obtain ⟨frames, encoded, recovered⟩ := dialogue_encodes serde host world token stdin
  obtain ⟨final, chain⟩ := dialogue_chain host world token stdin
  have all : heard (lines stdin) = texts := by rw [sent, heard_written written]
  refine ⟨frames, ?_, ?_, ?_⟩
  · rw [process_output]
    exact Format.unframe_flatten (List.forall₂_map_left_iff.mpr encoded)
  · have asks : List.Forall₂ (fun (call : Call) (turn : SessionTurn) =>
        call.Written turn.input.line) calls (dialogue host world token stdin) := by
      rw [← all, ← dialogue_lines host world token stdin] at written
      exact List.forall₂_map_right_iff.mp written
    have answers := (List.forall₂_and_left _ _).mpr ⟨chain.takes, recovered⟩
    refine forall₂_trans (fun call turn frame reads both => ?_) asks answers
    exact recovers_answersCall serde both.1 reads both.2
  · have code := congrArg Exit.code
      (loop_run host world (credential token) .new (lines stdin)).1
    rw [process, main, code, all, sent, if_neg]
    simp

end

section

attribute [local instance] Json.compact

def brokenOff : Stream := ⟨Text.encode Call.handshake.line ++ [10, 255, 10], true⟩

attribute [local instance] Serve.sha2 in
theorem process_answers_brokenOff :
    (∃ frames, replyFormat.unframe ((process none brokenOff).run Serve.recorded []).result.output =
        some frames ∧ List.Forall₂ Recovers (dialogue Serve.recorded [] none brokenOff) frames) ∧
      ((process none brokenOff).run Serve.recorded []).result.code =
        (if (lines brokenOff)[(heard (lines brokenOff)).length]? = some none then 9 else 0) ∧
      ((process none brokenOff).run Serve.recorded []).exchanges =
        (dialogue Serve.recorded [] none brokenOff).flatMap Turn.exchanges :=
  process_answers Serve.faithful_compact Serve.recorded [] none brokenOff

def spoken (calls : List Call) : List UInt8 :=
  calls.flatMap fun call => Text.encode call.line ++ [10]

private theorem line_ends (call : Call) :
    10 ∉ Text.encode call.line ∧ (Text.encode call.line).getLast? = some 125 := by
  have line : call.line = String.ofList (Json.write call.document) := rfl
  obtain ⟨-, closes⟩ := Json.write_object_braces call.members
  obtain ⟨inner, closed⟩ := List.getLast?_eq_some_iff.mp closes
  constructor
  · exact Text.newline_not_mem_encode
      (Json.newline_not_mem_compact_toString _ call.document_plain)
  · have chars : call.line.toList = inner ++ ['}'] := by
      rw [line, String.toList_ofList]
      exact closed
    have brace : String.utf8EncodeChar '}' = [125] := by decide
    rw [Text.encode, chars, List.flatMap_append, List.flatMap_cons, brace]
    simp

theorem lines_spoken (calls : List Call) :
    lines ⟨spoken calls, false⟩ = (calls.map Call.line).map some := by
  rw [lines]
  induction calls with
  | nil => rfl
  | cons call calls ih =>
      obtain ⟨single, last⟩ := line_ends call
      have kept : withoutReturn (Text.encode call.line) = Text.encode call.line := by
        rw [withoutReturn, last]
        rfl
      rw [spoken, List.flatMap_cons, List.append_assoc, List.singleton_append,
        linesFrom_append single, List.nil_append, kept, Text.decode_encode, List.map_cons,
        List.map_cons, ← ih]
      rfl

private theorem written_lines (calls : List Call) :
    List.Forall₂ Call.Written calls (calls.map Call.line) :=
  List.forall₂_map_right_iff.mpr (List.forall₂_same.mpr fun call _ => call.written_line)

theorem dialogue_spoken [Sha256] {W : Type} (host : Host W) (world : W) (token : Option String)
    (calls : List Call) : dialogue host world token ⟨spoken calls, false⟩ =
      history host world (calls.map fun call => call.request (credential token)) := by
  rw [dialogue, lines_spoken, heard_written (written_lines calls), asked, List.map_map]
  rfl

attribute [local instance] Serve.sha2

def ordinaryCalls : List Call :=
  [.handshake, .resolve "github://o/r/a?ref=m", .enumerate "c", .read "c" "a", .materialize "c"]

def ordinaryAnswers : List Answer := (Serve.ordinary.flatMap Turn.exchanges).map Prod.snd

theorem dialogue_ordinary :
    dialogue Serve.recorded ordinaryAnswers none ⟨spoken ordinaryCalls, false⟩ =
      Serve.ordinary :=
  (dialogue_spoken Serve.recorded ordinaryAnswers none ordinaryCalls).trans
    (Serve.replayed_eq Serve.ordinary_chain)

theorem conversation_ordinary :
    ∃ frames, replyFormat.unframe ((process none ⟨spoken ordinaryCalls, false⟩).run Serve.recorded
        ordinaryAnswers).result.output = some frames ∧
      List.Forall₂ AnswersCall ordinaryCalls frames ∧
      ((process none ⟨spoken ordinaryCalls, false⟩).run Serve.recorded
        ordinaryAnswers).result.code = 0 :=
  conversation Serve.faithful_compact Serve.recorded ordinaryAnswers none
    (lines_spoken ordinaryCalls) (written_lines ordinaryCalls)

/-- The output of the ordinary session, cut behind the first of its five replies. -/
theorem process_cut_ordinary :
    let output := ((process none ⟨spoken ordinaryCalls, false⟩).run Serve.recorded
      ordinaryAnswers).result.output
    let count := (chunk Serve.opening).length
    count < output.length ∧ ∃ found whole, found.length = 1 ∧
      List.Forall₂ Recovers ((dialogue Serve.recorded ordinaryAnswers none
        ⟨spoken ordinaryCalls, false⟩).take whole) found ∧
      output.take count = (((dialogue Serve.recorded ordinaryAnswers none
        ⟨spoken ordinaryCalls, false⟩).take whole).map chunk).flatten := by
  intro output count
  have parts : output = chunk Serve.opening ++ (chunk Serve.resolving ++
      ([Serve.enumerating, Serve.reading, Serve.materializing].map chunk).flatten) := by
    simp only [output, process_output, dialogue_ordinary, Serve.ordinary, List.map_cons,
      List.flatten_cons]
  have more : 0 < (chunk Serve.resolving).length := by
    rw [chunk]
    simp [Serve.resolving, Serve.resolveTurn, Serve.reply, replyWith, frame]
  obtain ⟨frames, encoded, -⟩ := dialogue_encodes Serve.faithful_compact Serve.recorded
    ordinaryAnswers none ⟨spoken ordinaryCalls, false⟩
  rw [dialogue_ordinary] at encoded
  cases encoded with
  | @cons _ first _ frames opened _ =>
      have read : replyFormat.unframe (output.take count) = some [first] := by
        have alone := Format.unframe_flatten (.cons opened .nil)
        rw [List.flatten_cons, List.flatten_nil, List.append_nil] at alone
        rw [parts, List.take_left, alone]
      obtain ⟨whole, recovered, same⟩ := process_cut Serve.faithful_compact Serve.recorded
        ordinaryAnswers none ⟨spoken ordinaryCalls, false⟩ read
      refine ⟨?_, [first], whole, rfl, recovered, same⟩
      rw [parts, List.length_append, List.length_append]
      omega

end

end GitHubProvider.Main
