/- What a failure does to a request, and what a refusal does to the session. -/

import GitHubProvider.Serve.Endings
import GitHubProvider.Serve.Entries

set_option autoImplicit false
set_option relaxedAutoImplicit false

namespace GitHubProvider.Serve

open Api (ApiError Success Tree listing namedCommit treeGet)
open Http (Answer Get Response)
open Json (SerdeJson Value)
open Locator (GitHubLocator)

section

variable [SerdeJson]

def NamesCommit (response : Response) : Prop :=
  ∃ document sha, SerdeJson.fromSlice response.body.toList = .ok document ∧
    document.get "sha" = some (.string sha) ∧ sha ≠ ""

def ListsWhole (response : Response) : Prop :=
  ∃ document items, SerdeJson.fromSlice response.body.toList = .ok document ∧
    document.get "tree" = some (.array items) ∧ Complete document items

inductive Fails (session : Session) (request : Request) : Get × Answer → Prop
  | unreached {get : Get} {reason : String} : Fails session request (get, .error reason)
  | refused {get : Get} {response : Response} : ¬Success response →
      Fails session request (get, .ok response)
  | unnamed {get : Get} {response : Response} : purpose session request get = .commit →
      ¬NamesCommit response → Fails session request (get, .ok response)
  | unlisted {get : Get} {response : Response} : purpose session request get = .tree →
      ¬ListsWhole response → Fails session request (get, .ok response)

/-- The listing was read from an answer of the turn, given with success and not cut short. -/
def ListedDuring (turn : SessionTurn) (snapshot : String) (tree : Tree) : Prop :=
  ∃ locator response document items,
    (treeGet locator snapshot turn.input.credential, (.ok response : Answer)) ∈ turn.exchanges ∧
      Success response ∧ SerdeJson.fromSlice response.body.toList = .ok document ∧
      document.get "truncated" ≠ some (.bool true) ∧
      document.get "tree" = some (.array items) ∧
      List.Forall₂ Describes (blobItems items) tree.entries

/-- The turn adds one listing, of the snapshot its request names, and changes nothing else
among the listings. -/
def KeepsOne (turn : SessionTurn) : Prop :=
  ∃ document kind snapshot tree,
    admission turn.before.handshaken turn.input.line = .ok (document, some kind) ∧
      document.strAt "snapshot" = some snapshot ∧ turn.before.trees.lookup snapshot = none ∧
      turn.after.trees = turn.before.trees.insert snapshot tree ∧ ListedDuring turn snapshot tree

structure FailsClosed (turn : SessionTurn) : Prop where
  refused {e : Get × Answer} : e ∈ turn.exchanges → Fails turn.before turn.input e →
    ∃ code message, turn.output = replyWith (.error code message) .empty
  intact {code : ProviderCode} {message : String} {content : Bytes} :
    turn.output = replyWith (.error code message) content →
      turn.after.handshaken = turn.before.handshaken ∧
        turn.after.resolved = turn.before.resolved ∧
        (turn.after.trees = turn.before.trees ∨ KeepsOne turn)

omit [SerdeJson] in
private theorem asArray_eq_some_iff {member : Option Value} {items : List Value} :
    member.bind Value.asArray = some items ↔ member = some (.array items) := by
  cases member with
  | none => simp
  | some value => cases value <;> simp [Value.asArray]

section

variable {session : Session} {request : Request} {answer : Answer} {authenticated : Bool}

theorem names_commit_iff : (∃ commit, namedCommit answer authenticated = .ok commit) ↔
    ∃ response, answer = .ok response ∧ Success response ∧ NamesCommit response := by
  simp only [Api.namedCommit_eq_ok_iff, Api.accepted_eq_ok_iff, Api.judge_ok_iff,
    strAt_eq_some_iff]
  constructor
  · intro h
    obtain ⟨commit, response, document, ⟨received, success⟩, read, named, full⟩ := h
    exact ⟨response, received, success, document, commit, read, named, full⟩
  · intro h
    obtain ⟨response, received, success, document, commit, read, named, full⟩ := h
    exact ⟨commit, response, document, ⟨received, success⟩, read, named, full⟩

private theorem listing_array {tree : Tree} (listed : listing answer authenticated = .ok tree) :
    ∃ response document items, answer = .ok response ∧ Success response ∧
      SerdeJson.fromSlice response.body.toList = .ok document ∧
      document.get "tree" = some (.array items) := by
  obtain ⟨response, document, items, received, read, -, array, -⟩ :=
    Api.listing_eq_ok_iff.mp listed
  obtain ⟨rfl, judged⟩ := Api.accepted_eq_ok_iff.mp received
  exact ⟨response, document, items, rfl, Api.judge_ok_iff.mp judged, read,
    asArray_eq_some_iff.mp array⟩

theorem lists_whole_iff : (∃ tree, listing answer authenticated = .ok tree) ↔
    ∃ response, answer = .ok response ∧ Success response ∧ ListsWhole response := by
  constructor
  · intro h
    obtain ⟨tree, listed⟩ := h
    obtain ⟨response, document, items, rfl, success, read, member⟩ := listing_array listed
    have complete := (listing_complete_iff success read member).mp ⟨tree, listed⟩
    exact ⟨response, rfl, success, document, items, read, member, complete⟩
  · intro h
    obtain ⟨response, rfl, success, document, items, read, member, complete⟩ := h
    exact (listing_complete_iff success read member).mpr complete

omit [SerdeJson] in
private theorem map_unit_eq_ok_iff {α : Type} {result : Except ApiError α} :
    (result.map fun _ => ()) = .ok () ↔ ∃ value, result = .ok value := by
  cases result <;> simp [Except.map]

theorem verdict_ok_iff {e : Get × Answer} : verdict session request e = .ok () ↔
    ∃ response, e.2 = .ok response ∧ Success response ∧
      (purpose session request e.1 = .commit → NamesCommit response) ∧
      (purpose session request e.1 = .tree → ListsWhole response) := by
  unfold verdict
  cases aim : purpose session request e.1 with
  | commit => simp [map_unit_eq_ok_iff, names_commit_iff]
  | tree => simp [map_unit_eq_ok_iff, lists_whole_iff]
  | blob => simp [map_unit_eq_ok_iff, Api.accepted_eq_ok_iff, Api.judge_ok_iff]

theorem fails_iff {e : Get × Answer} :
    Fails session request e ↔ verdict session request e ≠ .ok () := by
  rw [Ne, verdict_ok_iff]
  constructor
  · intro fails good
    obtain ⟨response, received, success, names, lists⟩ := good
    cases fails with
    | unreached => cases received
    | refused denied =>
        obtain rfl := Except.ok.inj received
        exact denied success
    | unnamed aim silent =>
        obtain rfl := Except.ok.inj received
        exact silent (names aim)
    | unlisted aim silent =>
        obtain rfl := Except.ok.inj received
        exact silent (lists aim)
  · intro bad
    obtain ⟨get, answer⟩ := e
    cases answer with
    | error reason => exact .unreached
    | ok response =>
        by_cases success : Success response
        · by_cases names : purpose session request get = .commit → NamesCommit response
          · have short : ¬(purpose session request get = .tree → ListsWhole response) :=
              fun lists => bad ⟨response, rfl, success, names, lists⟩
            rw [Classical.not_imp] at short
            exact .unlisted short.1 short.2
          · rw [Classical.not_imp] at names
            exact .unnamed names.1 names.2
        · exact .refused success

end

variable {turn : SessionTurn}

theorem Lists.listedDuring {snapshot : String} {locator : GitHubLocator} {tree : Tree}
    {answer : Answer}
    (lists : Lists turn.before turn.input turn.exchanges snapshot locator tree answer) :
    ListedDuring turn snapshot tree := by
  obtain ⟨response, document, items, rfl, success, read, member⟩ := listing_array lists.listed
  obtain ⟨whole, entries⟩ := (listing_describes_iff success read member).mp lists.listed
  obtain ⟨rest, asked⟩ := lists.asked
  refine ⟨locator, response, document, items, ?_, success, read, whole, member, entries⟩
  rw [asked]
  exact List.mem_cons_self

/-- Every request fails closed, and a refusal leaves the session intact. -/
theorem takes_failsClosed [Sha256] (serde : Faithful) (h : Session.serving.Takes turn) :
    FailsClosed turn := by
  constructor
  · intro e he fails
    cases failed : verdict turn.before turn.input e with
    | ok => exact absurd failed (fails_iff.mp fails)
    | error error => exact ⟨error.code, error.reason, (takes_ending h).refused he failed⟩
  · intro code message content refused
    have served {answer : Reply} {content' : Bytes} (serves : answer.serves = true) :
        turn.output ≠ replyWith answer content' := by
      intro output
      have same := (serde.replyWith_inj.mp (output.symm.trans refused)).1
      rw [same] at serves
      cases serves
    have effect := takes_effect h
    generalize hafter : turn.after = after at effect
    cases effect with
    | unchanged => exact ⟨rfl, rfl, .inl rfl⟩
    | handshaken _ _ output => exact absurd output (served rfl)
    | resolved _ output => exact absurd output (served rfl)
    | @listed snapshot locator tree answer lists =>
        obtain ⟨document, kind, admitted, -, held⟩ := lists.admitted
        have named := (Session.snapshot_eq_some_iff.mp held).1
        refine ⟨rfl, rfl, .inr ⟨document, kind, snapshot, tree, admitted, named, lists.absent, ?_,
          lists.listedDuring⟩⟩
        rw [hafter, Session.keep_trees]

end

section

attribute [local instance] Json.compact sha2

def missing : SessionTurn :=
  ⟨resolving.after, (Call.read "c" "z").request none,
    refuse .sourceUnavailable "that snapshot contains no such path",
    [(treeGet parent "c" none, found treeBody)], enumerating.after⟩

theorem takes_failsClosed_missing : FailsClosed missing := by
  have held : resolving.after.snapshot (Call.read "c" "z").document = some ("c", parent) := rfl
  have cases : resolving.after.ReadCase (Call.read "c" "z").document none
      [(treeGet parent "c" none, found treeBody)]
      (refuse .sourceUnavailable "that snapshot contains no such path") enumerating.after :=
    .absent held rfl (.listed rfl lists_file) rfl
  have taken : Session.serving.Takes missing := Session.handle_yields_iff.mpr
    (.read ((Call.read "c" "z").admission_line (.inr rfl)) cases)
  exact takes_failsClosed faithful_compact taken

end

end GitHubProvider.Serve
