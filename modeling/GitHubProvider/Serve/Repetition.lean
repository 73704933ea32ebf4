/- Requests that are sent more than once. -/

import GitHubProvider.Interaction.Fixed
import GitHubProvider.Serve.Effects

set_option autoImplicit false
set_option relaxedAutoImplicit false

namespace GitHubProvider.Serve

open Api (ApiError Tree)
open Http (Answer Get)
open Interaction (Machine Program fixed repeated)
open Json (SerdeJson Value)
open Locator (GitHubLocator)

variable [SerdeJson]

theorem admission_ready {handshaken : Bool} {line : String} {admitted : Value × Option String}
    (h : admission handshaken line = .ok admitted) : admission true line = .ok admitted := by
  unfold admission at h ⊢
  dsimp only at h ⊢
  split at h
  · cases h
  rename_i full
  rw [if_neg full]
  split at h
  · cases h
  split at h
  · cases h
  split at h
  · rename_i spoken
    split at h
    · cases h
    · simpa [spoken] using h
  · cases h

namespace Session

theorem TreeCase.again {session after : Session} {locator : GitHubLocator} {snapshot : String}
    {credential : Option String} {exchanges : Exchanges} {result : Except ApiError Tree}
    (h : session.TreeCase locator snapshot credential exchanges result after) :
    (∃ exchanges', exchanges' <:+ exchanges ∧
      after.TreeCase locator snapshot credential exchanges' result after) ∧
    after.resolved = session.resolved ∧ after.handshaken = session.handshaken := by
  cases h with
  | held held => exact ⟨⟨_, List.suffix_rfl, .held held⟩, rfl, rfl⟩
  | failed absent failed => exact ⟨⟨_, List.suffix_rfl, .failed absent failed⟩, rfl, rfl⟩
  | @listed answer tree absent listed =>
      have kept : (session.keep snapshot tree).trees.lookup snapshot = some tree := by simp
      exact ⟨⟨[], List.nil_suffix, .held kept⟩, rfl, rfl⟩

omit [SerdeJson] in
theorem snapshot_congr {session after : Session} (h : after.resolved = session.resolved)
    (request : Value) : after.snapshot request = session.snapshot request := by
  rw [Session.snapshot, Session.snapshot, h]

theorem ResolveCase.again {session after : Session} {request : Value}
    {credential : Option String} {exchanges : Exchanges} {outcome : Outcome}
    (h : session.ResolveCase request credential exchanges outcome after) :
    after.ResolveCase request credential exchanges outcome after ∧
      after.handshaken = session.handshaken := by
  cases h with
  | unnamed unnamed => exact ⟨.unnamed unnamed, rfl⟩
  | secret named secret => exact ⟨.secret named secret, rfl⟩
  | unread named clean unread => exact ⟨.unread named clean unread, rfl⟩
  | failed named clean parsed failed => exact ⟨.failed named clean parsed failed, rfl⟩
  | @resolved text commit locator answer named clean parsed resolved =>
      have twice : (session.hold commit locator).hold commit locator =
          session.hold commit locator := by
        simp only [hold, AList.insert_insert]
      have again : (session.hold commit locator).ResolveCase request credential
          [(Api.commitGet locator credential, answer)] (reply (.resolve commit locator.toString))
          ((session.hold commit locator).hold commit locator) :=
        .resolved named clean parsed resolved
      rw [twice] at again
      exact ⟨again, rfl⟩

theorem EnumerateCase.again {session after : Session} {request : Value}
    {credential : Option String} {exchanges : Exchanges} {outcome : Outcome}
    (h : session.EnumerateCase request credential exchanges outcome after) :
    (∃ exchanges', exchanges' <:+ exchanges ∧
      after.EnumerateCase request credential exchanges' outcome after) ∧
    after.handshaken = session.handshaken := by
  cases h with
  | notResolved unresolved => exact ⟨⟨_, List.suffix_rfl, .notResolved unresolved⟩, rfl⟩
  | failed held tree =>
      obtain ⟨⟨exchanges', less, again⟩, resolved, shaken⟩ := tree.again
      rw [← snapshot_congr resolved] at held
      exact ⟨⟨exchanges', less, .failed held again⟩, shaken⟩
  | listed held tree =>
      obtain ⟨⟨exchanges', less, again⟩, resolved, shaken⟩ := tree.again
      rw [← snapshot_congr resolved] at held
      exact ⟨⟨exchanges', less, .listed held again⟩, shaken⟩

theorem ReadCase.again {session after : Session} {request : Value}
    {credential : Option String} {exchanges : Exchanges} {outcome : Outcome}
    (h : session.ReadCase request credential exchanges outcome after) :
    (∃ exchanges', exchanges' <:+ exchanges ∧
      after.ReadCase request credential exchanges' outcome after) ∧
    after.handshaken = session.handshaken := by
  have followed {past past' : Exchanges} (less : past' <:+ past) (blob : Get × Answer) :
      past' ++ [blob] <:+ past ++ [blob] := by
    obtain ⟨before, rfl⟩ := less
    exact ⟨before, (List.append_assoc _ _ _).symm⟩
  cases h with
  | notResolved unresolved => exact ⟨⟨_, List.suffix_rfl, .notResolved unresolved⟩, rfl⟩
  | unnamed held unnamed => exact ⟨⟨_, List.suffix_rfl, .unnamed held unnamed⟩, rfl⟩
  | failed held named tree =>
      obtain ⟨⟨exchanges', less, again⟩, resolved, shaken⟩ := tree.again
      rw [← snapshot_congr resolved] at held
      exact ⟨⟨exchanges', less, .failed held named again⟩, shaken⟩
  | absent held named tree missing =>
      obtain ⟨⟨exchanges', less, again⟩, resolved, shaken⟩ := tree.again
      rw [← snapshot_congr resolved] at held
      exact ⟨⟨exchanges', less, .absent held named again missing⟩, shaken⟩
  | refused held named tree found judged =>
      obtain ⟨⟨exchanges', less, again⟩, resolved, shaken⟩ := tree.again
      rw [← snapshot_congr resolved] at held
      exact ⟨⟨_, followed less _, .refused held named again found judged⟩, shaken⟩
  | answered held named tree found judged =>
      obtain ⟨⟨exchanges', less, again⟩, resolved, shaken⟩ := tree.again
      rw [← snapshot_congr resolved] at held
      exact ⟨⟨_, followed less _, .answered held named again found judged⟩, shaken⟩

end Session

variable [Sha256]

/-- A request that comes again and is given the answers it was given ends as it did. It asks for
what it asked for last, or for less of it, and leaves the session as it is. -/
theorem takes_again {turn : SessionTurn} (h : Session.serving.Takes turn) :
    ∃ exchanges', exchanges' <:+ turn.exchanges ∧
      Session.serving.Takes ⟨turn.after, turn.input, turn.output, exchanges', turn.after⟩ := by
  have cases := takes_cases h
  generalize turn.before = before, turn.after = after, turn.exchanges = exchanges,
    turn.output = output at cases ⊢
  have taken {exchanges' : Exchanges}
      (cases : after.HandleCase turn.input.line turn.input.credential exchanges' output after) :
      Session.serving.Takes ⟨after, turn.input, output, exchanges', after⟩ :=
    Session.handle_yields_iff.mpr cases
  cases cases with
  | refused refused => exact ⟨[], List.suffix_rfl, taken (.refused refused)⟩
  | handshake admitted =>
      exact ⟨[], List.suffix_rfl, taken (.handshake (admission_ready admitted))⟩
  | resolve admitted cases =>
      obtain ⟨again, shaken⟩ := cases.again
      rw [← shaken] at admitted
      exact ⟨exchanges, List.suffix_rfl, taken (.resolve admitted again)⟩
  | enumerate admitted cases =>
      obtain ⟨⟨exchanges', less, again⟩, shaken⟩ := cases.again
      rw [← shaken] at admitted
      exact ⟨exchanges', less, taken (.enumerate admitted again)⟩
  | read admitted cases =>
      obtain ⟨⟨exchanges', less, again⟩, shaken⟩ := cases.again
      rw [← shaken] at admitted
      exact ⟨exchanges', less, taken (.read admitted again)⟩
  | materialize admitted cases =>
      exact ⟨exchanges, List.suffix_rfl, taken (.materialize admitted cases)⟩
  | undefined admitted undefined =>
      exact ⟨[], List.suffix_rfl, taken (.undefined admitted undefined)⟩
  | unnamed admitted => exact ⟨[], List.suffix_rfl, taken (.unnamed admitted)⟩

private theorem settles (answer : Get → Answer) (session : Session) (request : Request) :
    (Session.serving ((Session.serving session request).eval answer).2 request).eval answer =
      (Session.serving session request).eval answer := by
  have answered := Program.exchanges_fixed answer (Session.serving session request)
  have yields := (Session.serving session request).run_yields (fixed answer) ()
  rw [Program.run_fixed] at yields
  generalize ((Session.serving session request).run (fixed answer) ()).exchanges = exchanges at *
  generalize (Session.serving session request).eval answer = played at *
  obtain ⟨outcome, after⟩ := played
  have taken : Session.serving.Takes ⟨session, request, outcome, exchanges, after⟩ := yields
  obtain ⟨exchanges', less, again⟩ := takes_again taken
  exact Program.eval_of_yields again fun e he => answered e (less.mem he)

/-- Before a host that answers the same question the same way, requests may be sent again and
again: each copy gets the reply of the first, the other requests get the replies they would get
without it, and the session ends up the same. -/
theorem repetition_harmless (answer : Get → Answer) (session : Session)
    (counted : List (Request × Nat)) :
    Session.serving.reached answer session (repeated counted) =
        Session.serving.reached answer session (counted.map Prod.fst) ∧
      Session.serving.outputs answer session (repeated counted) =
        repeated ((Session.serving.outputs answer session (counted.map Prod.fst)).zip
          (counted.map Prod.snd)) :=
  Machine.play_repeated Session.serving answer (settles answer) session counted

end GitHubProvider.Serve
