/- The ideal provider, and the session's runs as runs of it. -/

import GitHubProvider.Interaction.Simulation
import GitHubProvider.Serve.Calls
import GitHubProvider.Serve.FailClosed
import GitHubProvider.Serve.History

/-!
Objects have names that settle what they are: a commit its files, a blob its bytes.
A provider of such objects has one thing to ask, the commit that a locator stands for
now. It keeps no listing and cannot fail. Before a host that tells the truth about the
objects the session is this provider, but for the requests that the host fails.
-/

set_option autoImplicit false
set_option relaxedAutoImplicit false

namespace GitHubProvider.Serve

open Api (ApiError Tree TreeEntry accepted blobGet commitGet listing namedCommit treeGet)
open Http (Answer Get)
open Interaction (Machine Program Turn)
open Interaction.Program (yields_done)
open Json (SerdeJson Value)
open Locator (GitHubLocator)

/-- The files at each commit, and the bytes of each blob. -/
structure Objects where
  files : String → List TreeEntry
  content : String → Bytes

def Objects.file (objects : Objects) (snapshot path : String) : Option Bytes :=
  ((objects.files snapshot).find? fun entry => entry.path = path).map fun entry =>
    objects.content entry.blobId

/-- What the ideal provider remembers: the locator that stood for each snapshot. -/
@[ext] structure Pinned where
  locator : String → Option GitHubLocator
  handshaken : Bool

namespace Pinned

def new : Pinned := ⟨fun _ => none, false⟩

def hold (pinned : Pinned) (commit : String) (locator : GitHubLocator) : Pinned :=
  { pinned with locator := Function.update pinned.locator commit (some locator) }

def snapshot (pinned : Pinned) (request : Value) : Option (String × GitHubLocator) := do
  let snapshot ← request.strAt "snapshot"
  let locator ← pinned.locator snapshot
  return (snapshot, locator)

end Pinned

section

variable [SerdeJson]

namespace Pinned

def resolve (pinned : Pinned) (request : Value) :
    Program GitHubLocator String (Outcome × Pinned) :=
  match request.strAt "locator" with
  | none => return (refuse .requestInvalid "the request names no locator", pinned)
  | some text =>
      if Session.carriesSecret request then
        return (refuse .requestInvalid
          "a credential travels as a name, and this request carries something else", pinned)
      else match GitHubLocator.parse text with
        | .error error => return (refuse .locatorInvalid error.toString, pinned)
        | .ok locator => do
            let commit ← .query locator
            return (reply (.resolve commit locator.toString), pinned.hold commit locator)

end Pinned

namespace Objects

variable (objects : Objects)

def enumerate (pinned : Pinned) (request : Value) : Outcome :=
  match pinned.snapshot request with
  | none => Session.notResolved
  | some (snapshot, _) => reply (.enumerate (objects.files snapshot))

def read (pinned : Pinned) (request : Value) : Outcome :=
  match pinned.snapshot request with
  | none => Session.notResolved
  | some (snapshot, _) =>
      match request.strAt "path" with
      | none => refuse .requestInvalid "the request names no path"
      | some path =>
          match objects.file snapshot path with
          | none => refuse .sourceUnavailable "that snapshot contains no such path"
          | some content => replyWith (.read content.len) content

variable [Sha256]

def materialize (pinned : Pinned) (request : Value) : Outcome :=
  match pinned.snapshot request with
  | none => Session.notResolved
  | some (snapshot, locator) =>
      if locator.isRoot then
        refuse .locatorInvalid "a graph locator names a file, and this one names a repository root"
      else
        match objects.file snapshot locator.path with
        | none => refuse .sourceUnavailable "that snapshot contains no such artifact"
        | some content =>
            replyWith (.materialize content.len (digest content.toList)) content

/-- The provider of the objects. Only a resolve asks anything. -/
def providing : Machine Pinned Request Outcome GitHubLocator String := fun pinned request =>
  match admission pinned.handshaken request.line with
  | .error outcome => return (outcome, pinned)
  | .ok (document, kind) =>
      match kind with
      | some "handshake" => return (reply .handshake, { pinned with handshaken := true })
      | some "resolve" => pinned.resolve document
      | some "enumerate" => return (objects.enumerate pinned document, pinned)
      | some "read" => return (objects.read pinned document, pinned)
      | some "materialize" => return (objects.materialize pinned document, pinned)
      | some other =>
          return (refuse .requestInvalid
            ("`" ++ other ++ "` is not a request this version defines"), pinned)
      | none => return (refuse .requestInvalid "the request names no kind", pinned)

end Objects

/-- What the host answers with success is what the objects are. -/
structure Truthful (objects : Objects) (exchange : Get × Answer) : Prop where
  tree {locator : GitHubLocator} {commit : String} {credential : Option String} {tree : Tree} :
    exchange.1 = treeGet locator commit credential →
      listing exchange.2 credential.isSome = .ok tree → tree.entries = objects.files commit
  blob {locator : GitHubLocator} {blobId : String} {credential : Option String}
      {response : Http.Response} :
    exchange.1 = blobGet locator blobId credential →
      accepted exchange.2 credential.isSome = .ok response → response.body = objects.content blobId

/-- What can be seen of a session: not the listings it keeps. -/
def Session.pinned (session : Session) : Pinned :=
  ⟨session.resolved.lookup, session.handshaken⟩

/-- The commits that the host named in the turn, under the locators asked for. -/
def NamesCommits (turn : SessionTurn) : List (GitHubLocator × String) → Prop :=
  List.Forall₂ (fun e named => e.1 = commitGet named.1 turn.input.credential ∧
      namedCommit e.2 turn.input.credential.isSome = .ok named.2)
    (turn.exchanges.filter fun e => purpose turn.before turn.input e.1 = .commit)

/-- The host failed the request, which is refused for that, and the visible state is as it was.
A read that failed may still keep the listing it fetched. -/
def FailedByHost (turn : SessionTurn) : Prop :=
  (∃ last error, turn.exchanges.getLast? = some last ∧
    verdict turn.before turn.input last = .error error ∧
    turn.output = refuse error.code error.reason) ∧
  turn.after.pinned = turn.before.pinned

def KeepsFiles (objects : Objects) (session : Session) : Prop :=
  ∀ snapshot tree, session.trees.lookup snapshot = some tree →
    tree.entries = objects.files snapshot

section

variable {objects : Objects} {session after : Session} {request : Request} {document : Value}
  {kind snapshot path : String} {locator : GitHubLocator} {exchanges : Exchanges}
  {output : Outcome} {tree : Tree} {turn : SessionTurn}

omit [SerdeJson] in
theorem pinned_hold (session : Session) (commit : String) (locator : GitHubLocator) :
    (session.hold commit locator).pinned = session.pinned.hold commit locator := by
  apply Pinned.ext
  · funext snapshot
    by_cases same : snapshot = commit
    · subst same
      simp [Session.pinned, Pinned.hold]
    · simp [Session.pinned, Pinned.hold, AList.lookup_insert_ne same, same]
  · rfl

theorem namesCommits_nil (other : kindOf turn.before turn.input.line ≠ some "resolve") :
    NamesCommits turn [] := by
  have none : (turn.exchanges.filter fun e =>
      purpose turn.before turn.input e.1 = .commit) = [] := by
    refine List.filter_eq_nil_iff.mpr fun e _ => ?_
    rw [purpose, if_neg other]
    split <;> simp
  rw [NamesCommits, none]
  exact .nil

theorem treeCase_files {credential : Option String} (files : KeepsFiles objects session)
    (truthful : ∀ e ∈ exchanges, Truthful objects e)
    (h : session.TreeCase locator snapshot credential exchanges (.ok tree) after) :
    tree.entries = objects.files snapshot := by
  cases h with
  | held held => exact files snapshot tree held
  | listed _ listed => exact (truthful _ List.mem_cons_self).tree rfl listed

theorem treeCase_pinned {credential : Option String} {result : Except ApiError Tree}
    (h : session.TreeCase locator snapshot credential exchanges result after) :
    after.pinned = session.pinned := by
  cases h <;> rfl

theorem resolve_providing
    (admitted : admission session.handshaken request.line = .ok (document, some "resolve"))
    (good : ∀ e ∈ exchanges, verdict session request e = .ok ())
    (h : session.ResolveCase document request.credential exchanges output after) :
    ∃ asked, NamesCommits ⟨session, request, output, exchanges, after⟩ asked ∧
      (session.pinned.resolve document).Yields asked (output, after.pinned) := by
  have silent : NamesCommits ⟨session, request, output, [], after⟩ [] := .nil
  unfold Pinned.resolve
  cases h with
  | unnamed unnamed =>
      refine ⟨[], silent, ?_⟩
      rw [unnamed]
      exact .done _
  | secret named secret =>
      refine ⟨[], silent, ?_⟩
      simp only [named, secret, if_true]
      exact .done _
  | unread named clean unread =>
      refine ⟨[], silent, ?_⟩
      simp only [named, clean, Bool.false_eq_true, if_false, unread]
      exact .done _
  | failed _ _ _ failed =>
      have fine := good _ List.mem_cons_self
      rw [verdict_commit admitted, failed] at fine
      cases fine
  | @resolved text commit locator answer named clean parsed committed =>
      refine ⟨[(locator, commit)], ?_, ?_⟩
      · have commit_asked : purpose session request (commitGet locator request.credential) =
            .commit := by
          rw [purpose, kindOf_admitted admitted, if_pos rfl]
        rw [NamesCommits, List.filter_cons_of_pos (by simpa using commit_asked), List.filter_nil]
        exact .cons ⟨rfl, committed⟩ .nil
      · simp only [named, clean, Bool.false_eq_true, if_false, parsed]
        rw [pinned_hold]
        exact .ask (.done _)

omit [SerdeJson] in
theorem file_of_find {entry : TreeEntry} (files : tree.entries = objects.files snapshot)
    (found : (tree.entries.find? fun entry => entry.path = path) = some entry) :
    objects.file snapshot path = some (objects.content entry.blobId) := by
  rw [Objects.file, ← files, found]
  rfl

omit [SerdeJson] in
theorem file_of_missing (files : tree.entries = objects.files snapshot)
    (missing : (tree.entries.find? fun entry => entry.path = path) = none) :
    objects.file snapshot path = none := by
  rw [Objects.file, ← files, missing]
  rfl

theorem enumerate_providing
    (admitted : admission session.handshaken request.line = .ok (document, some "enumerate"))
    (files : KeepsFiles objects session) (truthful : ∀ e ∈ exchanges, Truthful objects e)
    (good : ∀ e ∈ exchanges, verdict session request e = .ok ())
    (h : session.EnumerateCase document request.credential exchanges output after) :
    output = objects.enumerate session.pinned document ∧ after.pinned = session.pinned := by
  have hkind : "enumerate" ∈ snapshotKinds := by simp [snapshotKinds]
  unfold Objects.enumerate
  cases h with
  | notResolved unresolved =>
      have same : session.pinned.snapshot document = none := unresolved
      rw [same]
      exact ⟨rfl, rfl⟩
  | failed _ tree => exact absurd tree (treeCase_unfailed admitted hkind good)
  | @listed snapshot locator _ listing _ held tree =>
      have same : session.pinned.snapshot document = some (snapshot, locator) := held
      rw [same, treeCase_files files truthful tree]
      exact ⟨rfl, treeCase_pinned tree⟩

theorem read_providing
    (admitted : admission session.handshaken request.line = .ok (document, some "read"))
    (files : KeepsFiles objects session) (truthful : ∀ e ∈ exchanges, Truthful objects e)
    (good : ∀ e ∈ exchanges, verdict session request e = .ok ())
    (h : session.ReadCase document request.credential exchanges output after) :
    output = objects.read session.pinned document ∧ after.pinned = session.pinned := by
  have hkind : "read" ∈ snapshotKinds := by simp [snapshotKinds]
  unfold Objects.read
  cases h with
  | notResolved unresolved =>
      have same : session.pinned.snapshot document = none := unresolved
      rw [same]
      exact ⟨rfl, rfl⟩
  | @unnamed snapshot locator held unnamed =>
      have same : session.pinned.snapshot document = some (snapshot, locator) := held
      rw [same]
      dsimp only
      rw [unnamed]
      exact ⟨rfl, rfl⟩
  | failed _ _ tree => exact absurd tree (treeCase_unfailed admitted hkind good)
  | @absent snapshot path locator _ listing _ held named tree missing =>
      have same : session.pinned.snapshot document = some (snapshot, locator) := held
      have nothing := file_of_missing (treeCase_files files truthful tree) missing
      rw [same]
      simp only [named, nothing, true_and]
      exact treeCase_pinned tree
  | refused _ _ _ _ judged =>
      have fine := good _ (List.mem_append_right _ List.mem_cons_self)
      rw [verdict_blob admitted hkind, judged] at fine
      cases fine
  | @answered snapshot path locator exchanges listing _ entry answer response held named tree
      found judged =>
      have same : session.pinned.snapshot document = some (snapshot, locator) := held
      have listed : listing.entries = objects.files snapshot :=
        treeCase_files files (fun e he => truthful e (List.mem_append_left _ he)) tree
      have content : response.body = objects.content entry.blobId :=
        (truthful _ (List.mem_append_right _ List.mem_cons_self)).blob rfl judged
      rw [same]
      simp only [named, file_of_find listed found, content, true_and]
      exact treeCase_pinned tree

theorem materialize_providing [Sha256]
    (admitted : admission session.handshaken request.line = .ok (document, some "materialize"))
    (truthful : ∀ e ∈ exchanges, Truthful objects e)
    (good : ∀ e ∈ exchanges, verdict session request e = .ok ())
    (h : session.MaterializeCase document request.credential exchanges output) :
    output = objects.materialize session.pinned document := by
  have hkind : "materialize" ∈ snapshotKinds := by simp [snapshotKinds]
  unfold Objects.materialize
  cases h with
  | notResolved unresolved =>
      have same : session.pinned.snapshot document = none := unresolved
      rw [same]
  | @root snapshot locator held root =>
      have same : session.pinned.snapshot document = some (snapshot, locator) := held
      rw [same]
      dsimp only
      rw [if_pos root]
  | failed _ _ failed =>
      have fine := good _ List.mem_cons_self
      rw [verdict_tree admitted hkind, failed] at fine
      cases fine
  | @absent snapshot locator answer listing held file listed missing =>
      have same : session.pinned.snapshot document = some (snapshot, locator) := held
      have files := (truthful _ List.mem_cons_self).tree rfl listed
      rw [same]
      simp only [file, Bool.false_eq_true, if_false, file_of_missing files missing]
  | refused _ _ _ _ judged =>
      have fine := good _ (List.mem_cons_of_mem _ List.mem_cons_self)
      rw [verdict_blob admitted hkind, judged] at fine
      cases fine
  | @answered snapshot locator answer listing entry blob response held file listed found judged =>
      have same : session.pinned.snapshot document = some (snapshot, locator) := held
      have files := (truthful _ List.mem_cons_self).tree rfl listed
      have content : response.body = objects.content entry.blobId :=
        (truthful _ (List.mem_cons_of_mem _ List.mem_cons_self)).blob rfl judged
      rw [same]
      simp only [file, Bool.false_eq_true, if_false, file_of_find files found, content]

variable [Sha256]

theorem takes_providing (files : KeepsFiles objects turn.before)
    (truthful : ∀ e ∈ turn.exchanges, Truthful objects e) (taken : Session.serving.Takes turn)
    (succeeds : unfailed turn = true) :
    ∃ image, Machine.SeenAs Session.pinned NamesCommits turn image ∧
      objects.providing.Takes image := by
  have cases := takes_cases taken
  have good := unfailed_iff.mp succeeds
  obtain ⟨before, request, output, exchanges, after⟩ := turn
  dsimp only at files truthful cases good
  have silent (other : kindOf before request.line ≠ some "resolve") :
      NamesCommits ⟨before, request, output, exchanges, after⟩ [] := namesCommits_nil other
  suffices image : ∃ asked, NamesCommits ⟨before, request, output, exchanges, after⟩ asked ∧
      (objects.providing before.pinned request).Yields asked (output, after.pinned) by
    obtain ⟨asked, names, yields⟩ := image
    exact ⟨_, ⟨asked, names, rfl⟩, yields⟩
  have shaken : before.pinned.handshaken = before.handshaken := rfl
  unfold Objects.providing
  rw [shaken]
  cases cases with
  | refused refused =>
      refine ⟨[], .nil, ?_⟩
      rw [refused]
      exact .done _
  | handshake admitted =>
      refine ⟨[], .nil, ?_⟩
      rw [admitted]
      exact .done _
  | resolve admitted cases =>
      rw [admitted]
      exact resolve_providing admitted good cases
  | enumerate admitted cases =>
      obtain ⟨output, same⟩ := enumerate_providing admitted files truthful good cases
      refine ⟨[], silent (by simp [kindOf_admitted admitted]), ?_⟩
      rw [admitted, output, same]
      exact .done _
  | read admitted cases =>
      obtain ⟨output, same⟩ := read_providing admitted files truthful good cases
      refine ⟨[], silent (by simp [kindOf_admitted admitted]), ?_⟩
      rw [admitted, output, same]
      exact .done _
  | materialize admitted cases =>
      refine ⟨[], silent (by simp [kindOf_admitted admitted]), ?_⟩
      rw [admitted, materialize_providing admitted truthful good cases]
      exact .done _
  | undefined admitted undefined =>
      refine ⟨[], .nil, ?_⟩
      rw [admitted]
      dsimp only
      split <;> simp_all
  | unnamed admitted =>
      refine ⟨[], .nil, ?_⟩
      rw [admitted]
      exact .done _

theorem takes_failedByHost (taken : Session.serving.Takes turn) (fails : unfailed turn = false) :
    FailedByHost turn := by
  have bad : ¬∀ e ∈ turn.exchanges, verdict turn.before turn.input e = .ok () := by
    rw [← unfailed_iff, fails]
    exact Bool.false_ne_true
  constructor
  · cases takes_ending taken with
    | closed silent =>
        rw [silent] at bad
        exact absurd (by simp) bad
    | served good | declined good => exact absurd good bad
    | @failed earlier last error split _ failed ends =>
        refine ⟨last, error, ?_, failed, ends⟩
        rw [split, List.getLast?_append, List.getLast?_singleton]
        rfl
  · have effect := takes_effect taken
    generalize turn.after = after at effect
    cases effect with
    | unchanged | listed => rfl
    | handshaken _ silent =>
        rw [silent] at bad
        exact absurd (by simp) bad
    | resolved resolves =>
        obtain ⟨document, text, admitted, -⟩ := resolves.admitted
        refine absurd (fun e he => ?_) bad
        rw [resolves.asked, List.mem_singleton] at he
        rw [he, verdict_commit admitted, resolves.named]
        rfl

end

section

variable [Sha256] {objects : Objects} {history : List SessionTurn} {final : Session}

theorem chain_keepsFiles (h : Session.serving.Chain .new history final)
    (truthful : ∀ turn ∈ history, ∀ e ∈ turn.exchanges, Truthful objects e) :
    KeepsFiles objects final := by
  intro snapshot tree kept
  obtain ⟨locator, turn, hturn, answer, lists⟩ := ((chain_recorded h).trees snapshot tree).mp kept
  obtain ⟨rest, asked⟩ := lists.asked
  have first := truthful turn hturn (treeGet locator snapshot turn.input.credential, answer)
  rw [asked] at first
  exact (first List.mem_cons_self).tree rfl lists.listed

private theorem chain_before {turn : SessionTurn} (h : Session.serving.Chain .new history final)
    (truthful : ∀ turn ∈ history, ∀ e ∈ turn.exchanges, Truthful objects e)
    (hturn : turn ∈ history) : KeepsFiles objects turn.before := by
  obtain ⟨past, future, rfl⟩ := List.append_of_mem hturn
  exact chain_keepsFiles h.cut.1 fun t ht => truthful t (List.mem_append_left _ ht)

/-- The turns that the host does not fail are a run of the ideal provider. -/
theorem chain_providing (h : Session.serving.Chain .new history final)
    (truthful : ∀ turn ∈ history, ∀ e ∈ turn.exchanges, Truthful objects e) :
    ∃ images, objects.providing.Chain .new images final.pinned ∧
      List.Forall₂ (Machine.SeenAs Session.pinned NamesCommits) (history.filter unfailed)
        images := by
  have simulates : ∀ turn ∈ history,
      Session.serving.Simulates objects.providing Session.pinned NamesCommits unfailed turn := by
    intro turn hturn
    constructor
    · exact takes_providing (chain_before h truthful hturn) (truthful turn hturn)
    · exact fun taken fails => (takes_failedByHost taken fails).2
  exact h.simulates simulates

theorem chain_failedByHost (h : Session.serving.Chain .new history final) :
    ∀ turn ∈ history, unfailed turn = false → FailedByHost turn :=
  fun turn hturn fails => takes_failedByHost (h.takes turn hturn) fails

/-- Whatever the host names, lists and refuses, and in whatever order: the requests that it
does not fail are a run of the ideal provider, with the same replies and the same contents,
and every other request is refused for the answer that failed it and leaves the visible state
as it was. -/
theorem run_is_ideal (h : Session.serving.Chain .new history final)
    (truthful : ∀ turn ∈ history, ∀ e ∈ turn.exchanges, Truthful objects e) :
    (∃ images, objects.providing.Chain .new images final.pinned ∧
      List.Forall₂ (Machine.SeenAs Session.pinned NamesCommits) (history.filter unfailed) images) ∧
    ∀ turn ∈ history, unfailed turn = false → FailedByHost turn :=
  ⟨chain_providing h truthful, chain_failedByHost h⟩

private theorem chain_gives {turn : SessionTurn} {document : Value} {kind snapshot : String}
    {locator : GitHubLocator} (h : Session.serving.Chain .new history final)
    (truthful : ∀ turn ∈ history, ∀ e ∈ turn.exchanges, Truthful objects e)
    (hturn : turn ∈ history) (succeeds : unfailed turn = true)
    (admitted : admission true turn.input.line = .ok (document, some kind))
    (held : turn.before.resolved.lookup snapshot = some locator) :
    (kind = "enumerate" → turn.output = objects.enumerate turn.before.pinned document) ∧
      (kind = "read" → turn.output = objects.read turn.before.pinned document) ∧
      (kind = "materialize" → turn.output = objects.materialize turn.before.pinned document) := by
  obtain ⟨past, future, rfl⟩ := List.append_of_mem hturn
  have shaken : turn.before.pinned.handshaken = true := chain_handshaken h.cut.1 held
  obtain ⟨image, ⟨asked, -, rfl⟩, taken⟩ :=
    takes_providing (chain_before h truthful hturn) (truthful turn hturn) h.cut.2.1 succeeds
  simp only [Machine.Takes, Turn.seen, Objects.providing, shaken, admitted] at taken
  refine ⟨?_, ?_, ?_⟩ <;> rintro rfl <;> exact congrArg Prod.fst (yields_done.mp taken).2

/-- Two runs, of sessions with what they have resolved and listed and with the credentials
they have, before hosts that answer as they please about all but the objects: a request for
a snapshot that both resolved has one reply, unless the host fails it. A materialize is of
the path that the snapshot was resolved with. -/
theorem snapshot_isolated {history' : List SessionTurn} {final' : Session}
    {turn turn' : SessionTurn} {document : Value} {kind snapshot : String}
    {locator locator' : GitHubLocator} (h : Session.serving.Chain .new history final)
    (h' : Session.serving.Chain .new history' final')
    (truthful : ∀ turn ∈ history, ∀ e ∈ turn.exchanges, Truthful objects e)
    (truthful' : ∀ turn ∈ history', ∀ e ∈ turn.exchanges, Truthful objects e)
    (hturn : turn ∈ history) (hturn' : turn' ∈ history')
    (same : turn'.input.line = turn.input.line)
    (admitted : admission true turn.input.line = .ok (document, some kind))
    (hkind : kind ∈ snapshotKinds) (named : document.strAt "snapshot" = some snapshot)
    (held : turn.before.resolved.lookup snapshot = some locator)
    (held' : turn'.before.resolved.lookup snapshot = some locator')
    (path : kind = "materialize" → locator'.path = locator.path)
    (succeeds : unfailed turn = true) (succeeds' : unfailed turn' = true) :
    turn'.output = turn.output := by
  obtain ⟨enumerated, read, materialized⟩ :=
    chain_gives h truthful hturn succeeds admitted held
  obtain ⟨enumerated', read', materialized'⟩ :=
    chain_gives h' truthful' hturn' succeeds' (same ▸ admitted) held'
  have pinned : turn.before.pinned.snapshot document = some (snapshot, locator) :=
    Session.snapshot_eq_some_iff.mpr ⟨named, held⟩
  have pinned' : turn'.before.pinned.snapshot document = some (snapshot, locator') :=
    Session.snapshot_eq_some_iff.mpr ⟨named, held'⟩
  rcases mem_snapshotKinds_iff.mp hkind with rfl | rfl | rfl
  · rw [enumerated rfl, enumerated' rfl, Objects.enumerate, Objects.enumerate, pinned, pinned']
  · rw [read rfl, read' rfl, Objects.read, Objects.read, pinned, pinned']
  · rw [materialized rfl, materialized' rfl, Objects.materialize, Objects.materialize, pinned,
      pinned']
    dsimp only
    rw [GitHubLocator.isRoot, GitHubLocator.isRoot, path rfl]

end

end

section

attribute [local instance] Json.compact sha2

def oneFile : Objects := ⟨fun _ => [file], fun _ => fileBody⟩

private theorem commitGet_ne_treeGet (locator : GitHubLocator) (commit : String)
    (credential : Option String) (reference : GitHubLocator)
    (ends : (Api.commitUrl reference).toList.getLast? ≠ some '1') (sent : Option String) :
    commitGet reference sent ≠ treeGet locator commit credential := by
  intro same
  have url : Api.commitUrl reference = Api.treeUrl locator commit := congrArg Get.url same
  apply ends
  rw [url, Api.treeUrl, String.toList_append, List.getLast?_append]
  rfl

private theorem truthful_commit (owner : GitHubLocator) (answer : Answer)
    (ends : (Api.commitUrl owner).toList.getLast? ≠ some '1') :
    Truthful oneFile (commitGet owner none, answer) := by
  constructor
  · intro locator commit credential tree asked
    exact absurd asked (commitGet_ne_treeGet _ _ _ _ ends _)
  · intro locator blobId credential response asked
    exact absurd (congrArg Get.accept asked) Api.json_ne_raw

private theorem truthful_tree (owner : GitHubLocator) (commit : String) :
    Truthful oneFile (treeGet owner commit none, found treeBody) := by
  constructor
  · intro locator commit' credential tree asked listed
    obtain rfl : none = credential := congrArg Get.credential asked
    obtain rfl := Except.ok.inj (lists_file.symm.trans listed)
    rfl
  · intro locator blobId credential response asked
    exact absurd (congrArg Get.accept asked) Api.json_ne_raw

private theorem truthful_blob (owner : GitHubLocator) (blobId : String) :
    Truthful oneFile (blobGet owner blobId none, found fileBody) := by
  constructor
  · intro locator commit credential tree asked
    exact absurd (congrArg Get.accept asked).symm Api.json_ne_raw
  · intro locator blobId' credential response asked received
    rw [accepted_found] at received
    obtain rfl := Except.ok.inj received
    rfl

private theorem ordinary_truthful :
    ∀ turn ∈ ordinary, ∀ e ∈ turn.exchanges, Truthful oneFile e := by
  have commit := truthful_commit parent (found commitBody) (by decide)
  intro turn hturn
  simp only [ordinary, List.mem_cons, List.not_mem_nil, or_false] at hturn
  rcases hturn with rfl | rfl | rfl | rfl | rfl
  · simp [opening, handshakeTurn]
  · simpa [resolving, resolveTurn] using commit
  · simpa [enumerating, enumerateTurn] using truthful_tree parent "c"
  · simpa [reading, readTurn] using truthful_blob parent file.blobId
  · simpa [materializing, materializeTurn] using
      ⟨truthful_tree parent "c", truthful_blob parent file.blobId⟩

private theorem forked_truthful :
    ∀ turn ∈ forked, ∀ e ∈ turn.exchanges, Truthful oneFile e := by
  have commit := truthful_commit parent (found commitBody) (by decide)
  have commit' := truthful_commit fork (found commitBody) (by decide)
  intro turn hturn
  simp only [forked, List.mem_cons, List.not_mem_nil, or_false] at hturn
  rcases hturn with rfl | rfl | rfl | rfl | rfl
  · simp [opening, handshakeTurn]
  · simpa [resolving, resolveTurn] using commit
  · simpa [enumerating, enumerateTurn] using truthful_tree parent "c"
  · simpa [forking, resolveTurn] using commit'
  · simpa [forkReading, readTurn] using truthful_blob fork file.blobId

theorem run_is_ideal_ordinary :
    (∃ images, oneFile.providing.Chain .new images materializing.after.pinned ∧
      List.Forall₂ (Machine.SeenAs Session.pinned NamesCommits) (ordinary.filter unfailed)
        images) ∧
    ∀ turn ∈ ordinary, unfailed turn = false → FailedByHost turn :=
  run_is_ideal ordinary_chain ordinary_truthful

private theorem unfailed_readTurn {session : Session} (ready : session.handshaken = true)
    (snapshot : String) (locator : GitHubLocator) (entry : TreeEntry) (body : Bytes) :
    unfailed (readTurn session none snapshot locator entry body) = true := by
  refine unfailed_iff.mpr fun e he => ?_
  have admitted : admission session.handshaken ((Call.read snapshot entry.path).request none).line =
      .ok ((Call.read snapshot entry.path).document, some "read") :=
    (Call.read snapshot entry.path).admission_line (.inr ready)
  obtain rfl := List.mem_singleton.mp he
  exact verdict_blob admitted (by simp [snapshotKinds])

theorem snapshot_isolated_forked : forkReading.output = reading.output := by
  have admitted := (Call.read "c" file.path).admission_line (.inr rfl)
  exact snapshot_isolated ordinary_chain forked_chain ordinary_truthful forked_truthful
    (by simp [ordinary]) (by simp [forked]) rfl admitted (by simp [snapshotKinds, Call.kind]) rfl
    rfl rfl (fun materialize => absurd materialize (by decide))
    (unfailed_readTurn rfl _ _ _ _) (unfailed_readTurn rfl _ _ _ _)

end

end GitHubProvider.Serve
