/- The process when its caller goes away. -/

import GitHubProvider.Main.Process

set_option autoImplicit false
set_option relaxedAutoImplicit false

namespace GitHubProvider.Main

open Client (Stream)
open Http (Host Net)
open Interaction (Machine Program Turn)
open Json (SerdeJson)
open Serve (Session SessionTurn Sha256 asked replyWith)
open Text (trimText)

/-- Standard output takes everything, or as many more bytes as there is room for. -/
abbrev Room := Option Nat

/-- The room that is left after a write, or what of it was taken when it failed. -/
def write : Room → List UInt8 → Except (List UInt8) Room
  | none, _ => .ok none
  | some room, bytes =>
      if bytes.length ≤ room then .ok (some (room - bytes.length)) else .error (bytes.take room)

/-- The turns of a run that ends with the first reply that there is no room for. -/
structure EndsAt (room : Nat) (turns sent : List SessionTurn) (last : SessionTurn) : Prop where
  first : sent ++ [last] <+: turns
  taken : (sent.map chunk).flatten.length ≤ room
  broken : room < ((sent ++ [last]).map chunk).flatten.length

theorem EndsAt.cons {room : Nat} {turns sent : List SessionTurn} {turn last : SessionTurn}
    (fits : (chunk turn).length ≤ room) (h : EndsAt (room - (chunk turn).length) turns sent last) :
    EndsAt room (turn :: turns) (turn :: sent) last := by
  have taken := h.taken
  have broken := h.broken
  refine ⟨List.cons_prefix_cons.mpr ⟨rfl, h.first⟩, ?_, ?_⟩
  · rw [List.map_cons, List.flatten_cons, List.length_append]
    omega
  · rw [List.cons_append, List.map_cons, List.flatten_cons, List.length_append]
    omega

section

variable [SerdeJson] [Sha256]

/-- The loop of `main`, with a standard output that may fail. -/
def answerInto (credential : Option String) : Room → Session → List (Option String) → Net Exit
  | _, _, [] => return ⟨[], 0⟩
  | _, _, none :: _ => return ⟨[], 9⟩
  | room, session, some line :: lines => do
      let (outcome, session) ← session.handle line credential
      match outcome with
      | .done => return ⟨[], 0⟩
      | .reply line content =>
          match write room (frame line content) with
          | .error taken => return ⟨taken, 9⟩
          | .ok room => do
              let rest ← answerInto credential room session lines
              return { rest with output := frame line content ++ rest.output }

def processInto (room : Room) (token : Option String) (stdin : Stream) : Net Exit :=
  answerInto (credential token) room .new (lines stdin)

theorem answerInto_none (credential : Option String) (session : Session)
    (lines : List (Option String)) :
    answerInto credential none session lines = answer credential session lines := by
  induction lines generalizing session with
  | nil => rfl
  | cons line lines ih =>
      cases line with
      | none => rfl
      | some line =>
          rw [answerInto, answer]
          congr 1
          funext played
          obtain ⟨outcome, after⟩ := played
          cases outcome with
          | done => rfl
          | reply text content => simp only [write, ih]

theorem processInto_none (token : Option String) (stdin : Stream) :
    processInto none token stdin = process token stdin :=
  answerInto_none (credential token) .new (lines stdin)

/-- With limited room the loop does the same if its output fits. Otherwise it ends with the
reply that does not, and has asked for nothing after it. -/
private theorem into_run {W : Type} (host : Host W) (world : W) (credential : Option String)
    (session : Session) (lines : List (Option String)) (room : Nat) :
    (((answer credential session lines).run host world).result.output.length ≤ room ∧
      (answerInto credential (some room) session lines).run host world =
        (answer credential session lines).run host world) ∨
    (((answerInto credential (some room) session lines).run host world).result =
        ⟨((answer credential session lines).run host world).result.output.take room, 9⟩ ∧
      ∃ sent last, EndsAt room
          (Session.serving.turns host world session (asked credential (heard lines))) sent last ∧
        ((answerInto credential (some room) session lines).run host world).exchanges =
          (sent ++ [last]).flatMap Turn.exchanges) := by
  induction lines generalizing world session room with
  | nil => exact .inl ⟨Nat.zero_le _, rfl⟩
  | cons line lines ih =>
      cases line with
      | none => exact .inl ⟨Nat.zero_le _, rfl⟩
      | some line =>
          cases full : (trimText line).isEmpty with
          | true =>
              left
              rw [answer, answerInto, handle_blank full]
              exact ⟨Nat.zero_le _, rfl⟩
          | false =>
              obtain ⟨reply, content, exchanges, after, later, run⟩ :=
                handle_full_run host world credential session full
              have played : (Session.serving session ⟨line, credential⟩).run host world =
                ⟨(replyWith reply content, after), exchanges, later⟩ := run
              rw [heard_cons full, asked, List.map_cons, Machine.turns, played, answer, answerInto,
                Program.run_bind, Program.run_bind, run]
              obtain ⟨bytes, hbytes⟩ :
                  ∃ bytes, frame (SerdeJson.toString reply.document) content = bytes := ⟨_, rfl⟩
              obtain ⟨turn, hturn⟩ : ∃ turn : SessionTurn,
                  turn = ⟨session, ⟨line, credential⟩, replyWith reply content, exchanges, after⟩ :=
                ⟨_, rfl⟩
              have chunked : chunk turn = bytes := by
                rw [hturn]
                exact hbytes
              have asks : turn.exchanges = exchanges := by rw [hturn]
              rw [← hturn]
              simp only [replyWith, hbytes, write]
              by_cases fits : bytes.length ≤ room
              · -- the rest of the loop has the room that this reply leaves
                have fitting : (chunk turn).length ≤ room := by rwa [chunked]
                rw [if_pos fits]
                simp only [Program.run_bind, Program.pure_eq, Program.run, List.append_nil]
                rcases ih later after (room - bytes.length) with ⟨whole, same⟩ |
                  ⟨result, sent, last, ends, asked⟩
                · left
                  rw [same]
                  refine ⟨?_, rfl⟩
                  rw [List.length_append]
                  omega
                · right
                  rw [← chunked] at ends
                  refine ⟨?_, turn :: sent, last, ends.cons fitting, ?_⟩
                  · rw [result, List.take_append, List.take_of_length_le fits]
                  · rw [asked, List.cons_append, List.flatMap_cons, asks]
              · -- the reply is taken in part, and the loop ends with it
                right
                rw [if_neg fits]
                simp only [Program.run_bind, Program.pure_eq, Program.run, List.append_nil]
                refine ⟨?_, [], turn, ⟨?_, Nat.zero_le _, ?_⟩, ?_⟩
                · rw [List.take_append_of_le_length (by omega)]
                · exact List.cons_prefix_cons.mpr ⟨rfl, List.nil_prefix⟩
                · simpa [chunked] using fits
                · simp [asks]

/-- The caller goes away after so many bytes. If the output is longer, the process fails: it has
answered the first requests, the last of them in part, and has asked for nothing that later ones
ask for. If the output is not longer, it makes no difference. -/
theorem process_departed {W : Type} (host : Host W) (world : W) (token : Option String)
    (stdin : Stream) (room : Nat) :
    (((process token stdin).run host world).result.output.length ≤ room ∧
      (processInto (some room) token stdin).run host world =
        (process token stdin).run host world) ∨
    (((processInto (some room) token stdin).run host world).result =
        ⟨((process token stdin).run host world).result.output.take room, 9⟩ ∧
      ∃ sent last, EndsAt room (dialogue host world token stdin) sent last ∧
        ((processInto (some room) token stdin).run host world).exchanges =
          (sent ++ [last]).flatMap Turn.exchanges) :=
  into_run host world (credential token) .new (lines stdin) room

end

end GitHubProvider.Main
