/- A materialize and a read of the file that a locator names. -/

import GitHubProvider.Serve.Entries
import GitHubProvider.Serve.Uncached

set_option autoImplicit false
set_option relaxedAutoImplicit false

namespace GitHubProvider.Serve

open Api (ApiError Tree listing namedCommit treeGet)
open Http (Answer Get)
open Interaction (Machine Program Turn fixed)
open Json (SerdeJson Value)
open Locator (GitHubLocator)

section

variable [SerdeJson]

/-- A materialize and a read that serve the same bytes, or are refused with one code. -/
inductive SameFile : Outcome → Outcome → Prop
  | served (bytes : UInt64) (contentDigest : String) (content : Bytes) :
      SameFile (replyWith (.materialize bytes contentDigest) content)
        (replyWith (.read bytes) content)
  | refused (code : ProviderCode) (message message' : String) :
      SameFile (refuse code message) (refuse code message')

def Materializes (line snapshot : String) : Prop :=
  ∃ document, admission true line = .ok (document, some "materialize") ∧
    document.strAt "snapshot" = some snapshot

def Reads (line snapshot path : String) : Prop :=
  ∃ document, admission true line = .ok (document, some "read") ∧
    document.strAt "snapshot" = some snapshot ∧ document.strAt "path" = some path

variable [Sha256] (answer : Get → Answer) (credential : Option String)

def fileMaterialized (locator : GitHubLocator) : Except ApiError Tree → Outcome
  | .error error => refuse error.code error.reason
  | .ok tree =>
      match tree.entries.find? fun entry => entry.path = locator.path with
      | none => refuse .sourceUnavailable "that snapshot contains no such artifact"
      | some entry =>
          match (Api.readBlob locator entry.blobId credential).eval answer with
          | .error error => refuse error.code error.reason
          | .ok content =>
              replyWith (.materialize content.len (digest content.toList)) content

theorem sameFile_of_listing (locator : GitHubLocator) (result : Except ApiError Tree) :
    SameFile (fileMaterialized answer credential locator result)
      (fileRead answer credential locator locator.path result) := by
  cases result with
  | error error => exact .refused _ _ _
  | ok tree =>
      unfold fileMaterialized fileRead
      dsimp only
      cases tree.entries.find? fun entry => entry.path = locator.path with
      | none => exact .refused _ _ _
      | some entry =>
          dsimp only
          cases (Api.readBlob locator entry.blobId credential).eval answer with
          | error error => exact .refused _ _ _
          | ok content => exact .served _ _ _

variable {session : Session} {snapshot : String} {locator : GitHubLocator}

private theorem eval_materialize {request : Value} (file : locator.isRoot = false)
    (named : session.snapshot request = some (snapshot, locator)) :
    (session.materialize request credential).eval answer =
      (fileMaterialized answer credential locator
        (listing (answer (treeGet locator snapshot credential)) credential.isSome), session) := by
  simp only [Session.materialize, named, file, Bool.false_eq_true, if_false, Program.eval_bind,
    eval_enumerateTree]
  cases listing (answer (treeGet locator snapshot credential)) credential.isSome with
  | error error => rfl
  | ok tree =>
      unfold fileMaterialized
      dsimp only
      cases tree.entries.find? fun entry => entry.path = locator.path with
      | none => rfl
      | some entry =>
          simp only [Program.eval_bind]
          cases (Api.readBlob locator entry.blobId credential).eval answer <;> rfl

variable {line : String}

theorem eval_materializes (materializes : Materializes line snapshot)
    (ready : session.handshaken = true) (held : session.resolved.lookup snapshot = some locator)
    (file : locator.isRoot = false) :
    (Session.serving session ⟨line, credential⟩).eval answer =
      (fileMaterialized answer credential locator
        (listing (answer (treeGet locator snapshot credential)) credential.isSome), session) := by
  obtain ⟨document, admitted, stated⟩ := materializes
  have named := Session.snapshot_eq_some_iff.mpr ⟨stated, held⟩
  simp only [Session.serving, Session.handle, ready, admitted]
  exact eval_materialize answer credential file named

variable {answer credential}

theorem eval_reads {path : String} (fresh : Fresh answer session credential)
    (reads : Reads line snapshot path) (ready : session.handshaken = true)
    (held : session.resolved.lookup snapshot = some locator) :
    ∃ after, (Session.serving session ⟨line, credential⟩).eval answer =
      (fileRead answer credential locator path
        (listing (answer (treeGet locator snapshot credential)) credential.isSome), after) ∧
      after.forget = session.forget := by
  obtain ⟨document, admitted, stated, path_stated⟩ := reads
  have named := Session.snapshot_eq_some_iff.mpr ⟨stated, held⟩
  refine ⟨_, ?_, tree_forgets answer session credential locator snapshot⟩
  simp only [Session.serving, Session.handle, ready, admitted]
  rw [eval_read answer session document credential named path_stated, tree_fresh fresh held]

private theorem history_outputs_append (lines more : List String) :
    (history (fixed answer) () (asked credential (lines ++ more))).map Turn.output =
      (history (fixed answer) () (asked credential lines)).map Turn.output ++
        Session.serving.outputs answer
          (Session.serving.reached answer .new (asked credential lines))
          (asked credential more) := by
  simp only [history, Machine.turns_fixed_output]
  rw [asked_append, Machine.outputs_append]

/-- Of a snapshot that a session holds with a file, a materialize and a read of that file
agree, whichever comes first and whether or not the session keeps its listing. -/
theorem materialize_read_agree {lines : List String} {materialize read : String}
    (addressed : Addressed answer credential (history (fixed answer) () (asked credential lines)))
    (held : (Session.serving.reached answer .new (asked credential lines)).resolved.lookup
      snapshot = some locator)
    (file : locator.path ≠ "") (materializes : Materializes materialize snapshot)
    (reads : Reads read snapshot locator.path) :
    ∃ materialized fetched, SameFile materialized fetched ∧
      (history (fixed answer) () (asked credential (lines ++ [materialize, read]))).map
          Turn.output =
        (history (fixed answer) () (asked credential lines)).map Turn.output ++
          [materialized, fetched] ∧
      (history (fixed answer) () (asked credential (lines ++ [read, materialize]))).map
          Turn.output =
        (history (fixed answer) () (asked credential lines)).map Turn.output ++
          [fetched, materialized] := by
  have fresh := fresh_reached addressed (List.append_nil (asked credential lines)).symm
  have chain := Machine.chain_reached Session.serving answer .new (asked credential lines)
  have ready := chain_handshaken chain held
  rw [history_outputs_append, history_outputs_append]
  generalize Session.serving.reached answer .new (asked credential lines) = session
    at held fresh ready ⊢
  have rooted : locator.isRoot = false := by
    simpa [GitHubLocator.isRoot] using file
  let result := listing (answer (treeGet locator snapshot credential)) credential.isSome
  obtain ⟨after, found, same⟩ := eval_reads fresh reads ready held
  have ready' : after.handshaken = true := (congrArg Uncached.handshaken same).trans ready
  have held' : after.resolved.lookup snapshot = some locator := by
    have resolved : after.resolved = session.resolved := congrArg Uncached.resolved same
    rw [resolved, held]
  have first := eval_materializes answer credential materializes ready held rooted
  have second := eval_materializes answer credential materializes ready' held' rooted
  refine ⟨_, _, sameFile_of_listing answer credential locator result, ?_, ?_⟩
  · simp only [asked, List.map_cons, List.map_nil, Machine.outputs, first, found, result]
  · simp only [asked, List.map_cons, List.map_nil, Machine.outputs, found, second, result]

end

section

attribute [local instance] Json.compact sha2

theorem uniformBody_fromSlice :
    SerdeJson.fromSlice uniformBody.toList = .ok uniformDocument := by
  have plain : Json.Plain uniformDocument := by
    refine plain_object ?_ ?_
    · simp only [List.map_cons, List.map_nil]
      decide +kernel
    · simp [itemDocument_plain, Json.Plain, Json.PlainMembers, Json.PlainItems]
  exact Json.compact_fromSlice_toString uniformDocument plain

private theorem names_uniform : namedCommit (found uniformBody) false = .ok "c" :=
  Api.namedCommit_eq_ok_iff.mpr
    ⟨_, _, accepted_found uniformBody false, uniformBody_fromSlice, rfl, by decide⟩

theorem lists_uniform : listing (found uniformBody) false = .ok ⟨[file]⟩ := by
  have success : Api.Success ⟨200, ∅, uniformBody⟩ := ⟨by decide, by decide⟩
  have whole : uniformDocument.get "truncated" = none := rfl
  have described : List.Forall₂ Describes (blobItems [itemDocument file]) [file] :=
    .cons ⟨rfl, rfl, rfl⟩ .nil
  refine (listing_describes_iff success uniformBody_fromSlice rfl).mpr ⟨?_, described⟩
  rw [whole]
  simp

def uniformResolving : SessionTurn :=
  resolveTurn opening.after none "github://o/r/a?ref=m" "c" parent (found uniformBody)

def uniformEnumerating : SessionTurn :=
  enumerateTurn uniformResolving.after none "c" parent ⟨[file]⟩ (found uniformBody)

def uniformTurns : List SessionTurn := [opening, uniformResolving, uniformEnumerating]

private theorem takes_uniformResolving : Session.serving.Takes uniformResolving :=
  takes_resolveTurn rfl (by decide) names_uniform

private theorem takes_uniformEnumerating : Session.serving.Takes uniformEnumerating :=
  takes_enumerateTurn rfl rfl rfl lists_uniform

private theorem uniform_chain :
    Session.serving.Chain .new uniformTurns uniformEnumerating.after := by
  apply Machine.Chain.cons (takes_handshakeTurn .new none)
  apply Machine.Chain.cons takes_uniformResolving
  apply Machine.Chain.cons takes_uniformEnumerating
  exact .nil _

private theorem uniform_json {get : Get} (json : get.accept = Api.jsonMediaType) :
    uniform get = found uniformBody := by
  rw [uniform, json, if_neg Api.json_ne_raw]

private theorem uniform_answered :
    ∀ turn ∈ uniformTurns, ∀ e ∈ turn.exchanges, e.2 = uniform e.1 := by
  have commit : uniform (Api.commitGet parent none) = found uniformBody := uniform_json rfl
  have tree : uniform (treeGet parent "c" none) = found uniformBody := uniform_json rfl
  intro turn hturn
  simp only [uniformTurns, List.mem_cons, List.not_mem_nil, or_false] at hturn
  rcases hturn with rfl | rfl | rfl
  · simp [opening, handshakeTurn]
  · simp [uniformResolving, resolveTurn, commit]
  · simp [uniformEnumerating, enumerateTurn, tree]

def listedLines : List String :=
  [Call.handshake.line, (Call.resolve "github://o/r/a?ref=m").line, (Call.enumerate "c").line]

theorem materialize_read_agree_uniform :
    ∃ materialized fetched, SameFile materialized fetched ∧
      (history (fixed uniform) () (asked none
          (listedLines ++ [(Call.materialize "c").line, (Call.read "c" "a").line]))).map
          Turn.output =
        (history (fixed uniform) () (asked none listedLines)).map Turn.output ++
          [materialized, fetched] ∧
      (history (fixed uniform) () (asked none
          (listedLines ++ [(Call.read "c" "a").line, (Call.materialize "c").line]))).map
          Turn.output =
        (history (fixed uniform) () (asked none listedLines)).map Turn.output ++
          [fetched, materialized] := by
  have addressed : Addressed uniform none (history (fixed uniform) () (asked none listedLines)) :=
    fun commit first second _ _ => rfl
  have inputs : asked none listedLines = uniformTurns.map Turn.input := rfl
  have reached : Session.serving.reached uniform .new (asked none listedLines) =
      uniformEnumerating.after := by
    rw [inputs]
    exact Machine.reached_of_chain uniform_chain uniform_answered
  have held : (Session.serving.reached uniform .new (asked none listedLines)).resolved.lookup "c" =
      some parent := by
    rw [reached]
    rfl
  have materializes : Materializes (Call.materialize "c").line "c" :=
    ⟨_, (Call.materialize "c").admission_line (.inr rfl), rfl⟩
  have reads : Reads (Call.read "c" "a").line "c" parent.path :=
    ⟨_, (Call.read "c" "a").admission_line (.inr rfl), rfl, rfl⟩
  exact materialize_read_agree addressed held (by decide) materializes reads

end

end GitHubProvider.Serve
