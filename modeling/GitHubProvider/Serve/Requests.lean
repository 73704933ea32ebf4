/- What one request can do, for any answers the host may give. -/

import GitHubProvider.Serve

/-!
One inductive for each function of the request loop lists its ways to end: the
exchanges it made, the outcome, and the session it leaves. Every later module
reasons by cases on these and never unfolds the functions.
-/

set_option autoImplicit false
set_option relaxedAutoImplicit false

namespace GitHubProvider.Serve

open Api (ApiError Tree TreeEntry accepted commitGet listing namedCommit treeGet blobGet)
open Http (Answer Get)
open Interaction (Machine)
open Interaction.Program (yields_bind yields_done)
open Json (SerdeJson Value)
open Locator (GitHubLocator)

structure Request where
  line : String
  credential : Option String
  deriving DecidableEq

def asked (credential : Option String) (lines : List String) : List Request :=
  lines.map fun line => ⟨line, credential⟩

abbrev Exchanges := List (Get × Answer)

theorem admission_error_code [SerdeJson] {handshaken : Bool} {line : String} {outcome : Outcome}
    (h : admission handshaken line = .error outcome) :
    outcome = .done ∨ ∃ code message, outcome = refuse code message ∧
      code ∈ [.requestInvalid, .protocolUnsupported] := by
  unfold admission at h
  dsimp only at h
  split at h
  · cases h
    exact .inl rfl
  split at h
  · cases h
    exact .inr ⟨_, _, rfl, by simp⟩
  split at h
  · cases h
    exact .inr ⟨_, _, rfl, by simp⟩
  split at h
  · split at h
    · cases h
      exact .inr ⟨_, _, rfl, by simp⟩
    · cases h
  · cases h
    exact .inr ⟨_, _, rfl, by simp⟩

theorem admission_error [SerdeJson] {handshaken : Bool} {line : String} {outcome : Outcome}
    (h : admission handshaken line = .error outcome) :
    outcome = .done ∨ ∃ code message, outcome = refuse code message := by
  rcases admission_error_code h with done | ⟨code, message, refused, -⟩
  · exact .inl done
  · exact .inr ⟨code, message, refused⟩

theorem handshaken_of_admission [SerdeJson] {handshaken : Bool} {line : String}
    {document : Value} {kind : String} (h : admission handshaken line = .ok (document, some kind))
    (hkind : kind ≠ "handshake") : handshaken = true := by
  unfold admission at h
  dsimp only at h
  split at h
  · cases h
  split at h
  · cases h
  split at h
  · cases h
  split at h
  swap
  · cases h
  split at h
  · cases h
  rename_i allowed
  simp only [Except.ok.injEq, Prod.mk.injEq] at h
  obtain ⟨rfl, named⟩ := h
  by_contra early
  exact allowed ⟨by simpa [named] using hkind, early⟩

theorem admission_unready [SerdeJson] {line : String} {document : Value} {kind : String}
    (admitted : admission true line = .ok (document, some kind)) (other : kind ≠ "handshake") :
    admission false line =
      .error (refuse .requestInvalid "no handshake has been exchanged") := by
  unfold admission at admitted ⊢
  dsimp only at admitted ⊢
  split at admitted
  · cases admitted
  rename_i full
  rw [if_neg full]
  split at admitted
  · cases admitted
  split at admitted
  · cases admitted
  split at admitted
  · rename_i spoken
    simp only [not_true_eq_false, and_false, if_false, Except.ok.injEq, Prod.mk.injEq] at admitted
    obtain ⟨rfl, named⟩ := admitted
    simp [spoken, named, other]
  · cases admitted

namespace Session

def hold (session : Session) (commit : String) (locator : GitHubLocator) : Session :=
  { session with resolved := session.resolved.insert commit locator }

def keep (session : Session) (snapshot : String) (tree : Tree) : Session :=
  { session with trees := session.trees.insert snapshot tree }

@[simp] theorem hold_resolved (session : Session) (commit : String) (locator : GitHubLocator) :
    (session.hold commit locator).resolved = session.resolved.insert commit locator := rfl

@[simp] theorem hold_trees (session : Session) (commit : String) (locator : GitHubLocator) :
    (session.hold commit locator).trees = session.trees := rfl

@[simp] theorem hold_handshaken (session : Session) (commit : String) (locator : GitHubLocator) :
    (session.hold commit locator).handshaken = session.handshaken := rfl

@[simp] theorem keep_resolved (session : Session) (snapshot : String) (tree : Tree) :
    (session.keep snapshot tree).resolved = session.resolved := rfl

@[simp] theorem keep_trees (session : Session) (snapshot : String) (tree : Tree) :
    (session.keep snapshot tree).trees = session.trees.insert snapshot tree := rfl

@[simp] theorem keep_handshaken (session : Session) (snapshot : String) (tree : Tree) :
    (session.keep snapshot tree).handshaken = session.handshaken := rfl

theorem snapshot_eq_some_iff {session : Session} {request : Value} {snapshot : String}
    {locator : GitHubLocator} :
    session.snapshot request = some (snapshot, locator) ↔
      request.strAt "snapshot" = some snapshot ∧
        session.resolved.lookup snapshot = some locator := by
  simp only [Session.snapshot, Option.bind_eq_bind, Option.bind_eq_some_iff, Option.pure_def,
    Option.some.injEq, Prod.mk.injEq]
  constructor
  · intro h
    obtain ⟨_, hrequest, _, hheld, rfl, rfl⟩ := h
    exact ⟨hrequest, hheld⟩
  · intro h
    obtain ⟨hrequest, hheld⟩ := h
    exact ⟨_, hrequest, _, hheld, rfl, rfl⟩

theorem snapshot_unique {session : Session} {request : Value} {snapshot snapshot' : String}
    {locator locator' : GitHubLocator} (held : session.snapshot request = some (snapshot, locator))
    (held' : session.snapshot request = some (snapshot', locator')) :
    snapshot = snapshot' ∧ locator = locator' :=
  Prod.mk.inj (Option.some.inj (held.symm.trans held'))

variable [SerdeJson]

/-- The ways `tree` ends. -/
inductive TreeCase (session : Session) (locator : GitHubLocator) (snapshot : String)
    (credential : Option String) : Exchanges → Except ApiError Tree → Session → Prop
  | held {tree : Tree} : session.trees.lookup snapshot = some tree →
      TreeCase session locator snapshot credential [] (.ok tree) session
  | failed {answer : Answer} {error : ApiError} : session.trees.lookup snapshot = none →
      listing answer credential.isSome = .error error →
      TreeCase session locator snapshot credential
        [(treeGet locator snapshot credential, answer)] (.error error) session
  | listed {answer : Answer} {tree : Tree} : session.trees.lookup snapshot = none →
      listing answer credential.isSome = .ok tree →
      TreeCase session locator snapshot credential
        [(treeGet locator snapshot credential, answer)] (.ok tree) (session.keep snapshot tree)

private theorem tree_cases {session after : Session} {locator : GitHubLocator}
    {snapshot : String} {credential : Option String} {exchanges : Exchanges}
    {result : Except ApiError Tree}
    (h : (session.tree locator snapshot credential).Yields exchanges (result, after)) :
    session.TreeCase locator snapshot credential exchanges result after := by
  unfold tree at h
  split at h
  · rename_i tree held
    obtain ⟨rfl, ⟨⟩⟩ := yields_done.mp h
    exact .held held
  · rename_i absent
    obtain ⟨_, rest, listed, rfl, hlisting, hrest⟩ := yields_bind.mp h
    obtain ⟨answer, rfl, rfl⟩ := Api.enumerateTree_yields.mp hlisting
    split at hrest
    · rename_i error herror
      obtain ⟨rfl, ⟨⟩⟩ := yields_done.mp hrest
      exact .failed absent herror
    · rename_i tree htree
      obtain ⟨rfl, ⟨⟩⟩ := yields_done.mp hrest
      exact .listed absent htree

theorem tree_yields_iff {session after : Session} {locator : GitHubLocator} {snapshot : String}
    {credential : Option String} {exchanges : Exchanges} {result : Except ApiError Tree} :
    (session.tree locator snapshot credential).Yields exchanges (result, after) ↔
      session.TreeCase locator snapshot credential exchanges result after := by
  refine ⟨tree_cases, fun h => ?_⟩
  unfold tree
  cases h with
  | held held =>
      rw [held]
      exact .done _
  | failed absent failed | listed absent failed =>
      rw [absent]
      refine yields_bind.mpr ⟨_, [], _, (List.append_nil _).symm,
        Api.enumerateTree_yields.mpr ⟨_, rfl, rfl⟩, ?_⟩
      rw [failed]
      exact .done _

inductive ResolveCase (session : Session) (request : Value) (credential : Option String) :
    Exchanges → Outcome → Session → Prop
  | unnamed : request.strAt "locator" = none →
      ResolveCase session request credential []
        (refuse .requestInvalid "the request names no locator") session
  | secret {text : String} : request.strAt "locator" = some text → carriesSecret request = true →
      ResolveCase session request credential []
        (refuse .requestInvalid
          "a credential travels as a name, and this request carries something else") session
  | unread {text : String} {error : Locator.LocatorError} :
      request.strAt "locator" = some text → carriesSecret request = false →
      GitHubLocator.parse text = .error error →
      ResolveCase session request credential [] (refuse .locatorInvalid error.toString) session
  | failed {text : String} {locator : GitHubLocator} {answer : Answer} {error : ApiError} :
      request.strAt "locator" = some text → carriesSecret request = false →
      GitHubLocator.parse text = .ok locator →
      namedCommit answer credential.isSome = .error error →
      ResolveCase session request credential [(commitGet locator credential, answer)]
        (refuse error.code error.reason) session
  | resolved {text commit : String} {locator : GitHubLocator} {answer : Answer} :
      request.strAt "locator" = some text → carriesSecret request = false →
      GitHubLocator.parse text = .ok locator →
      namedCommit answer credential.isSome = .ok commit →
      ResolveCase session request credential [(commitGet locator credential, answer)]
        (reply (.resolve commit locator.toString)) (session.hold commit locator)

private theorem resolve_cases {session after : Session} {request : Value}
    {credential : Option String} {exchanges : Exchanges} {outcome : Outcome}
    (h : (session.resolve request credential).Yields exchanges (outcome, after)) :
    session.ResolveCase request credential exchanges outcome after := by
  unfold resolve at h
  split at h
  · rename_i unnamed
    obtain ⟨rfl, ⟨⟩⟩ := yields_done.mp h
    exact .unnamed unnamed
  rename_i text named
  split at h
  · rename_i secret
    obtain ⟨rfl, ⟨⟩⟩ := yields_done.mp h
    exact .secret named secret
  rename_i clean
  rw [Bool.not_eq_true] at clean
  split at h
  · rename_i error unread
    obtain ⟨rfl, ⟨⟩⟩ := yields_done.mp h
    exact .unread named clean unread
  rename_i locator parsed
  obtain ⟨_, rest, result, rfl, hcommit, hrest⟩ := yields_bind.mp h
  obtain ⟨answer, rfl, rfl⟩ := Api.resolveCommit_yields.mp hcommit
  split at hrest
  · rename_i error failed
    obtain ⟨rfl, ⟨⟩⟩ := yields_done.mp hrest
    exact .failed named clean parsed failed
  · rename_i commit resolved
    obtain ⟨rfl, ⟨⟩⟩ := yields_done.mp hrest
    exact .resolved named clean parsed resolved

theorem resolve_yields_iff {session after : Session} {request : Value}
    {credential : Option String} {exchanges : Exchanges} {outcome : Outcome} :
    (session.resolve request credential).Yields exchanges (outcome, after) ↔
      session.ResolveCase request credential exchanges outcome after := by
  refine ⟨resolve_cases, fun h => ?_⟩
  unfold resolve
  cases h with
  | unnamed unnamed =>
      rw [unnamed]
      exact .done _
  | secret named secret =>
      simp only [named, secret, if_true]
      exact .done _
  | unread named clean unread =>
      simp only [named, clean, Bool.false_eq_true, if_false, unread]
      exact .done _
  | failed named clean parsed result | resolved named clean parsed result =>
      simp only [named, clean, Bool.false_eq_true, if_false, parsed]
      refine yields_bind.mpr ⟨_, [], _, (List.append_nil _).symm,
        Api.resolveCommit_yields.mpr ⟨_, rfl, rfl⟩, ?_⟩
      rw [result]
      exact .done _

def notResolved : Outcome :=
  refuse .requestInvalid "that snapshot was not resolved in this session"

inductive EnumerateCase (session : Session) (request : Value) (credential : Option String) :
    Exchanges → Outcome → Session → Prop
  | notResolved : session.snapshot request = none →
      EnumerateCase session request credential [] notResolved session
  | failed {snapshot : String} {locator : GitHubLocator} {exchanges : Exchanges}
      {error : ApiError} {after : Session} :
      session.snapshot request = some (snapshot, locator) →
      session.TreeCase locator snapshot credential exchanges (.error error) after →
      EnumerateCase session request credential exchanges (refuse error.code error.reason) after
  | listed {snapshot : String} {locator : GitHubLocator} {exchanges : Exchanges} {tree : Tree}
      {after : Session} :
      session.snapshot request = some (snapshot, locator) →
      session.TreeCase locator snapshot credential exchanges (.ok tree) after →
      EnumerateCase session request credential exchanges (reply (.enumerate tree.entries)) after

private theorem enumerate_cases {session after : Session} {request : Value}
    {credential : Option String} {exchanges : Exchanges} {outcome : Outcome}
    (h : (session.enumerate request credential).Yields exchanges (outcome, after)) :
    session.EnumerateCase request credential exchanges outcome after := by
  unfold enumerate at h
  split at h
  · rename_i unresolved
    obtain ⟨rfl, ⟨⟩⟩ := yields_done.mp h
    exact .notResolved unresolved
  rename_i snapshot locator held
  obtain ⟨first, rest, ⟨listed, middle⟩, rfl, htree, hrest⟩ := yields_bind.mp h
  have tree := tree_cases htree
  dsimp only at hrest
  split at hrest <;> obtain ⟨rfl, ⟨⟩⟩ := yields_done.mp hrest <;> rw [List.append_nil]
  · exact .failed held tree
  · exact .listed held tree

theorem enumerate_yields_iff {session after : Session} {request : Value}
    {credential : Option String} {exchanges : Exchanges} {outcome : Outcome} :
    (session.enumerate request credential).Yields exchanges (outcome, after) ↔
      session.EnumerateCase request credential exchanges outcome after := by
  refine ⟨enumerate_cases, fun h => ?_⟩
  unfold enumerate
  cases h with
  | notResolved unresolved =>
      rw [unresolved]
      exact .done _
  | failed held tree | listed held tree =>
      rw [held]
      exact yields_bind.mpr ⟨_, [], _, (List.append_nil _).symm, tree_yields_iff.mpr tree, .done _⟩

inductive ReadCase (session : Session) (request : Value) (credential : Option String) :
    Exchanges → Outcome → Session → Prop
  | notResolved : session.snapshot request = none →
      ReadCase session request credential [] notResolved session
  | unnamed {snapshot : String} {locator : GitHubLocator} :
      session.snapshot request = some (snapshot, locator) → request.strAt "path" = none →
      ReadCase session request credential []
        (refuse .requestInvalid "the request names no path") session
  | failed {snapshot path : String} {locator : GitHubLocator} {exchanges : Exchanges}
      {error : ApiError} {after : Session} :
      session.snapshot request = some (snapshot, locator) → request.strAt "path" = some path →
      session.TreeCase locator snapshot credential exchanges (.error error) after →
      ReadCase session request credential exchanges (refuse error.code error.reason) after
  | absent {snapshot path : String} {locator : GitHubLocator} {exchanges : Exchanges} {tree : Tree}
      {after : Session} :
      session.snapshot request = some (snapshot, locator) → request.strAt "path" = some path →
      session.TreeCase locator snapshot credential exchanges (.ok tree) after →
      (tree.entries.find? fun entry => entry.path = path) = none →
      ReadCase session request credential exchanges
        (refuse .sourceUnavailable "that snapshot contains no such path") after
  | refused {snapshot path : String} {locator : GitHubLocator} {exchanges : Exchanges}
      {tree : Tree} {after : Session} {entry : TreeEntry} {answer : Answer} {error : ApiError} :
      session.snapshot request = some (snapshot, locator) → request.strAt "path" = some path →
      session.TreeCase locator snapshot credential exchanges (.ok tree) after →
      (tree.entries.find? fun entry => entry.path = path) = some entry →
      accepted answer credential.isSome = .error error →
      ReadCase session request credential
        (exchanges ++ [(blobGet locator entry.blobId credential, answer)])
        (refuse error.code error.reason) after
  | answered {snapshot path : String} {locator : GitHubLocator} {exchanges : Exchanges}
      {tree : Tree} {after : Session} {entry : TreeEntry} {answer : Answer}
      {response : Http.Response} :
      session.snapshot request = some (snapshot, locator) → request.strAt "path" = some path →
      session.TreeCase locator snapshot credential exchanges (.ok tree) after →
      (tree.entries.find? fun entry => entry.path = path) = some entry →
      accepted answer credential.isSome = .ok response →
      ReadCase session request credential
        (exchanges ++ [(blobGet locator entry.blobId credential, answer)])
        (replyWith (.read response.body.len) response.body) after

private theorem read_cases {session after : Session} {request : Value}
    {credential : Option String} {exchanges : Exchanges} {outcome : Outcome}
    (h : (session.read request credential).Yields exchanges (outcome, after)) :
    session.ReadCase request credential exchanges outcome after := by
  unfold read at h
  split at h
  · rename_i unresolved
    obtain ⟨rfl, ⟨⟩⟩ := yields_done.mp h
    exact .notResolved unresolved
  rename_i snapshot locator held
  split at h
  · rename_i unnamed
    obtain ⟨rfl, ⟨⟩⟩ := yields_done.mp h
    exact .unnamed held unnamed
  rename_i path named
  obtain ⟨first, rest, ⟨listed, middle⟩, rfl, htree, hrest⟩ := yields_bind.mp h
  have tree := tree_cases htree
  dsimp only at hrest
  split at hrest
  · obtain ⟨rfl, ⟨⟩⟩ := yields_done.mp hrest
    rw [List.append_nil]
    exact .failed held named tree
  split at hrest
  · rename_i missing
    obtain ⟨rfl, ⟨⟩⟩ := yields_done.mp hrest
    rw [List.append_nil]
    exact .absent held named tree missing
  rename_i entry found
  obtain ⟨_, rest, content, rfl, hblob, hrest⟩ := yields_bind.mp hrest
  obtain ⟨answer, rfl, rfl⟩ := Api.readBlob_yields.mp hblob
  cases judged : accepted answer credential.isSome with
  | error error =>
      rw [judged] at hrest
      obtain ⟨rfl, ⟨⟩⟩ := yields_done.mp hrest
      exact .refused held named tree found judged
  | ok response =>
      rw [judged] at hrest
      obtain ⟨rfl, ⟨⟩⟩ := yields_done.mp hrest
      exact .answered held named tree found judged

theorem read_yields_iff {session after : Session} {request : Value}
    {credential : Option String} {exchanges : Exchanges} {outcome : Outcome} :
    (session.read request credential).Yields exchanges (outcome, after) ↔
      session.ReadCase request credential exchanges outcome after := by
  refine ⟨read_cases, fun h => ?_⟩
  unfold read
  cases h with
  | notResolved unresolved =>
      rw [unresolved]
      exact .done _
  | unnamed held unnamed =>
      simp only [held, unnamed]
      exact .done _
  | failed held named tree =>
      simp only [held, named]
      exact yields_bind.mpr ⟨_, [], _, (List.append_nil _).symm, tree_yields_iff.mpr tree, .done _⟩
  | absent held named tree missing =>
      simp only [held, named]
      refine yields_bind.mpr ⟨_, [], _, (List.append_nil _).symm, tree_yields_iff.mpr tree, ?_⟩
      simp only [missing]
      exact .done _
  | refused held named tree found judged | answered held named tree found judged =>
      simp only [held, named]
      refine yields_bind.mpr ⟨_, _, _, rfl, tree_yields_iff.mpr tree, ?_⟩
      simp only [found]
      refine yields_bind.mpr ⟨_, [], _, (List.append_nil _).symm,
        Api.readBlob_yields.mpr ⟨_, rfl, rfl⟩, ?_⟩
      rw [judged]
      exact .done _

/-- The ways `materialize` ends. It lists the tree afresh and keeps no listing. -/
inductive MaterializeCase [Sha256] (session : Session) (request : Value)
    (credential : Option String) : Exchanges → Outcome → Prop
  | notResolved : session.snapshot request = none →
      MaterializeCase session request credential [] notResolved
  | root {snapshot : String} {locator : GitHubLocator} :
      session.snapshot request = some (snapshot, locator) → locator.isRoot = true →
      MaterializeCase session request credential []
        (refuse .locatorInvalid
          "a graph locator names a file, and this one names a repository root")
  | failed {snapshot : String} {locator : GitHubLocator} {answer : Answer} {error : ApiError} :
      session.snapshot request = some (snapshot, locator) → locator.isRoot = false →
      listing answer credential.isSome = .error error →
      MaterializeCase session request credential [(treeGet locator snapshot credential, answer)]
        (refuse error.code error.reason)
  | absent {snapshot : String} {locator : GitHubLocator} {answer : Answer} {tree : Tree} :
      session.snapshot request = some (snapshot, locator) → locator.isRoot = false →
      listing answer credential.isSome = .ok tree →
      (tree.entries.find? fun entry => entry.path = locator.path) = none →
      MaterializeCase session request credential [(treeGet locator snapshot credential, answer)]
        (refuse .sourceUnavailable "that snapshot contains no such artifact")
  | refused {snapshot : String} {locator : GitHubLocator} {answer : Answer} {tree : Tree}
      {entry : TreeEntry} {blob : Answer} {error : ApiError} :
      session.snapshot request = some (snapshot, locator) → locator.isRoot = false →
      listing answer credential.isSome = .ok tree →
      (tree.entries.find? fun entry => entry.path = locator.path) = some entry →
      accepted blob credential.isSome = .error error →
      MaterializeCase session request credential
        [(treeGet locator snapshot credential, answer),
          (blobGet locator entry.blobId credential, blob)]
        (refuse error.code error.reason)
  | answered {snapshot : String} {locator : GitHubLocator} {answer : Answer} {tree : Tree}
      {entry : TreeEntry} {blob : Answer} {response : Http.Response} :
      session.snapshot request = some (snapshot, locator) → locator.isRoot = false →
      listing answer credential.isSome = .ok tree →
      (tree.entries.find? fun entry => entry.path = locator.path) = some entry →
      accepted blob credential.isSome = .ok response →
      MaterializeCase session request credential
        [(treeGet locator snapshot credential, answer),
          (blobGet locator entry.blobId credential, blob)]
        (replyWith (.materialize response.body.len (digest response.body.toList)) response.body)

private theorem materialize_cases [Sha256] {session after : Session} {request : Value}
    {credential : Option String} {exchanges : Exchanges} {outcome : Outcome}
    (h : (session.materialize request credential).Yields exchanges (outcome, after)) :
    session.MaterializeCase request credential exchanges outcome ∧ after = session := by
  unfold materialize at h
  split at h
  · rename_i unresolved
    obtain ⟨rfl, ⟨⟩⟩ := yields_done.mp h
    exact ⟨.notResolved unresolved, rfl⟩
  rename_i snapshot locator held
  split at h
  · rename_i root
    obtain ⟨rfl, ⟨⟩⟩ := yields_done.mp h
    exact ⟨.root held root, rfl⟩
  rename_i file
  rw [Bool.not_eq_true] at file
  obtain ⟨_, rest, result, rfl, hlisting, hrest⟩ := yields_bind.mp h
  obtain ⟨answer, rfl, rfl⟩ := Api.enumerateTree_yields.mp hlisting
  split at hrest
  · rename_i error failed
    obtain ⟨rfl, ⟨⟩⟩ := yields_done.mp hrest
    exact ⟨.failed held file failed, rfl⟩
  rename_i tree listed
  split at hrest
  · rename_i missing
    obtain ⟨rfl, ⟨⟩⟩ := yields_done.mp hrest
    exact ⟨.absent held file listed missing, rfl⟩
  rename_i entry found
  obtain ⟨_, rest, content, rfl, hblob, hrest⟩ := yields_bind.mp hrest
  obtain ⟨blob, rfl, rfl⟩ := Api.readBlob_yields.mp hblob
  cases judged : accepted blob credential.isSome with
  | error error =>
      rw [judged] at hrest
      obtain ⟨rfl, ⟨⟩⟩ := yields_done.mp hrest
      exact ⟨.refused held file listed found judged, rfl⟩
  | ok response =>
      rw [judged] at hrest
      obtain ⟨rfl, ⟨⟩⟩ := yields_done.mp hrest
      exact ⟨.answered held file listed found judged, rfl⟩

theorem materialize_yields_iff [Sha256] {session after : Session} {request : Value}
    {credential : Option String} {exchanges : Exchanges} {outcome : Outcome} :
    (session.materialize request credential).Yields exchanges (outcome, after) ↔
      session.MaterializeCase request credential exchanges outcome ∧ after = session := by
  refine ⟨materialize_cases, ?_⟩
  intro h
  obtain ⟨h, rfl⟩ := h
  unfold materialize
  cases h with
  | notResolved unresolved =>
      rw [unresolved]
      exact .done _
  | root held root =>
      simp only [held, root, if_true]
      exact .done _
  | failed held file failed =>
      simp only [held, file, Bool.false_eq_true, if_false]
      refine yields_bind.mpr ⟨_, [], _, (List.append_nil _).symm,
        Api.enumerateTree_yields.mpr ⟨_, rfl, rfl⟩, ?_⟩
      rw [failed]
      exact .done _
  | absent held file listed missing =>
      simp only [held, file, Bool.false_eq_true, if_false]
      refine yields_bind.mpr ⟨_, [], _, (List.append_nil _).symm,
        Api.enumerateTree_yields.mpr ⟨_, rfl, rfl⟩, ?_⟩
      simp only [listed, missing]
      exact .done _
  | refused held file listed found judged | answered held file listed found judged =>
      simp only [held, file, Bool.false_eq_true, if_false]
      refine yields_bind.mpr ⟨[_], [_], _, rfl, Api.enumerateTree_yields.mpr ⟨_, rfl, rfl⟩, ?_⟩
      simp only [listed, found]
      refine yields_bind.mpr ⟨_, [], _, (List.append_nil _).symm,
        Api.readBlob_yields.mpr ⟨_, rfl, rfl⟩, ?_⟩
      rw [judged]
      exact .done _

inductive HandleCase [Sha256] (session : Session) (line : String) (credential : Option String) :
    Exchanges → Outcome → Session → Prop
  | refused {outcome : Outcome} : admission session.handshaken line = .error outcome →
      HandleCase session line credential [] outcome session
  | handshake {request : Value} :
      admission session.handshaken line = .ok (request, some "handshake") →
      HandleCase session line credential [] (reply .handshake) { session with handshaken := true }
  | resolve {request : Value} {exchanges : Exchanges} {outcome : Outcome} {after : Session} :
      admission session.handshaken line = .ok (request, some "resolve") →
      session.ResolveCase request credential exchanges outcome after →
      HandleCase session line credential exchanges outcome after
  | enumerate {request : Value} {exchanges : Exchanges} {outcome : Outcome} {after : Session} :
      admission session.handshaken line = .ok (request, some "enumerate") →
      session.EnumerateCase request credential exchanges outcome after →
      HandleCase session line credential exchanges outcome after
  | read {request : Value} {exchanges : Exchanges} {outcome : Outcome} {after : Session} :
      admission session.handshaken line = .ok (request, some "read") →
      session.ReadCase request credential exchanges outcome after →
      HandleCase session line credential exchanges outcome after
  | materialize {request : Value} {exchanges : Exchanges} {outcome : Outcome} :
      admission session.handshaken line = .ok (request, some "materialize") →
      session.MaterializeCase request credential exchanges outcome →
      HandleCase session line credential exchanges outcome session
  | undefined {request : Value} {kind : String} :
      admission session.handshaken line = .ok (request, some kind) →
      kind ∉ ["handshake", "resolve", "enumerate", "read", "materialize"] →
      HandleCase session line credential []
        (refuse .requestInvalid ("`" ++ kind ++ "` is not a request this version defines")) session
  | unnamed {request : Value} : admission session.handshaken line = .ok (request, none) →
      HandleCase session line credential []
        (refuse .requestInvalid "the request names no kind") session

private theorem handle_cases [Sha256] {session after : Session} {line : String}
    {credential : Option String} {exchanges : Exchanges} {outcome : Outcome}
    (h : (session.handle line credential).Yields exchanges (outcome, after)) :
    session.HandleCase line credential exchanges outcome after := by
  unfold handle at h
  split at h
  · rename_i outcome refused
    obtain ⟨rfl, ⟨⟩⟩ := yields_done.mp h
    exact .refused refused
  rename_i request kind admitted
  split at h
  · obtain ⟨rfl, ⟨⟩⟩ := yields_done.mp h
    exact .handshake admitted
  · exact .resolve admitted (resolve_cases h)
  · exact .enumerate admitted (enumerate_cases h)
  · exact .read admitted (read_cases h)
  · obtain ⟨cases, rfl⟩ := materialize_cases h
    exact .materialize admitted cases
  · obtain ⟨rfl, ⟨⟩⟩ := yields_done.mp h
    refine .undefined admitted ?_
    simp_all
  · obtain ⟨rfl, ⟨⟩⟩ := yields_done.mp h
    exact .unnamed admitted

theorem handle_yields_iff [Sha256] {session after : Session} {line : String}
    {credential : Option String} {exchanges : Exchanges} {outcome : Outcome} :
    (session.handle line credential).Yields exchanges (outcome, after) ↔
      session.HandleCase line credential exchanges outcome after := by
  refine ⟨handle_cases, fun h => ?_⟩
  unfold handle
  cases h with
  | refused refused =>
      rw [refused]
      exact .done _
  | handshake admitted | unnamed admitted =>
      rw [admitted]
      exact .done _
  | resolve admitted cases =>
      rw [admitted]
      exact resolve_yields_iff.mpr cases
  | enumerate admitted cases =>
      rw [admitted]
      exact enumerate_yields_iff.mpr cases
  | read admitted cases =>
      rw [admitted]
      exact read_yields_iff.mpr cases
  | materialize admitted cases =>
      rw [admitted]
      exact materialize_yields_iff.mpr ⟨cases, rfl⟩
  | undefined admitted undefined =>
      rw [admitted]
      dsimp only
      split <;> simp_all

def serving [Sha256] : Machine Session Request Outcome Get Answer :=
  fun session request => session.handle request.line request.credential

end Session

end GitHubProvider.Serve
