/- The session against one that keeps no listings. -/

import GitHubProvider.Interaction.Fixed
import GitHubProvider.Serve.Calls
import GitHubProvider.Serve.History

/-!
The reference session lists a tree every time it needs one. Before a host that
answers by a function, and tree requests for one commit alike whichever
repository they are sent to, the session answers as the reference does: what it
keeps is at all times what the host would list again.
-/

set_option autoImplicit false
set_option relaxedAutoImplicit false

namespace GitHubProvider.Serve

open Api (ApiError Tree listing treeGet)
open Http (Answer Get Net)
open Interaction (Machine Program Turn fixed)
open Json (SerdeJson Value)
open Locator (GitHubLocator)

structure Uncached where
  resolved : BTreeMap String GitHubLocator
  handshaken : Bool

def Session.forget (session : Session) : Uncached := ⟨session.resolved, session.handshaken⟩

namespace Uncached

def new : Uncached := ⟨∅, false⟩

variable [SerdeJson]

def bare (session : Uncached) : Session := ⟨session.resolved, ∅, session.handshaken⟩

def resolve (session : Uncached) (request : Value) (credential : Option String) :
    Net (Outcome × Uncached) := do
  let (outcome, after) ← session.bare.resolve request credential
  return (outcome, after.forget)

def enumerate (session : Uncached) (request : Value) (credential : Option String) :
    Net (Outcome × Uncached) :=
  match session.bare.snapshot request with
  | none =>
      return (refuse .requestInvalid "that snapshot was not resolved in this session", session)
  | some (snapshot, locator) => do
      match ← Api.enumerateTree locator snapshot credential with
      | .error error => return (refuse error.code error.reason, session)
      | .ok tree => return (reply (.enumerate tree.entries), session)

def read (session : Uncached) (request : Value) (credential : Option String) :
    Net (Outcome × Uncached) :=
  match session.bare.snapshot request with
  | none =>
      return (refuse .requestInvalid "that snapshot was not resolved in this session", session)
  | some (snapshot, locator) =>
      match request.strAt "path" with
      | none => return (refuse .requestInvalid "the request names no path", session)
      | some path => do
          match ← Api.enumerateTree locator snapshot credential with
          | .error error => return (refuse error.code error.reason, session)
          | .ok tree =>
              match tree.entries.find? fun entry => entry.path = path with
              | none =>
                  return (refuse .sourceUnavailable "that snapshot contains no such path", session)
              | some entry =>
                  match ← Api.readBlob locator entry.blobId credential with
                  | .error error => return (refuse error.code error.reason, session)
                  | .ok content => return (replyWith (.read content.len) content, session)

/-- `materialize` lists the tree afresh anyway. -/
def materialize [Sha256] (session : Uncached) (request : Value) (credential : Option String) :
    Net (Outcome × Uncached) := do
  let (outcome, after) ← session.bare.materialize request credential
  return (outcome, after.forget)

def handle [Sha256] (session : Uncached) (line : String) (credential : Option String) :
    Net (Outcome × Uncached) :=
  match admission session.handshaken line with
  | .error outcome => return (outcome, session)
  | .ok (request, kind) =>
      match kind with
      | some "handshake" => return (reply .handshake, { session with handshaken := true })
      | some "resolve" => session.resolve request credential
      | some "enumerate" => session.enumerate request credential
      | some "read" => session.read request credential
      | some "materialize" => session.materialize request credential
      | some other =>
          return (refuse .requestInvalid
            ("`" ++ other ++ "` is not a request this version defines"), session)
      | none => return (refuse .requestInvalid "the request names no kind", session)

def serving [Sha256] : Machine Uncached Request Outcome Get Answer :=
  fun session request => session.handle request.line request.credential

end Uncached

section

variable [SerdeJson] (answer : Get → Answer) (session : Session) (request : Value)
  (credential : Option String)

theorem eval_enumerateTree (locator : GitHubLocator) (snapshot : String) :
    (Api.enumerateTree locator snapshot credential).eval answer =
      listing (answer (treeGet locator snapshot credential)) credential.isSome := rfl

theorem tree_forgets (locator : GitHubLocator) (snapshot : String) :
    ((session.tree locator snapshot credential).eval answer).2.forget = session.forget := by
  unfold Session.tree
  split
  · rfl
  · rw [Program.eval_bind, eval_enumerateTree]
    cases listing (answer (treeGet locator snapshot credential)) credential.isSome <;> rfl

/-- What the session keeps is what the host would list again. -/
def Fresh : Prop :=
  ∀ snapshot locator tree, session.resolved.lookup snapshot = some locator →
    session.trees.lookup snapshot = some tree →
      listing (answer (treeGet locator snapshot credential)) credential.isSome = .ok tree

variable {answer session credential}

theorem tree_fresh (fresh : Fresh answer session credential) {locator : GitHubLocator}
    {snapshot : String} (held : session.resolved.lookup snapshot = some locator) :
    ((session.tree locator snapshot credential).eval answer).1 =
      listing (answer (treeGet locator snapshot credential)) credential.isSome := by
  unfold Session.tree
  split
  · rename_i tree kept
    exact (fresh snapshot locator tree held kept).symm
  · rw [Program.eval_bind, eval_enumerateTree]
    cases listing (answer (treeGet locator snapshot credential)) credential.isSome <;> rfl

variable (answer session credential)

private theorem resolve_forgets :
    (session.forget.resolve request credential).eval answer =
      (((session.resolve request credential).eval answer).1,
        ((session.resolve request credential).eval answer).2.forget) := by
  unfold Uncached.resolve Session.resolve
  rw [Program.eval_bind]
  cases request.strAt "locator" with
  | none => rfl
  | some text =>
      dsimp only
      cases Session.carriesSecret request with
      | true => rfl
      | false =>
          simp only [Bool.false_eq_true, if_false]
          cases GitHubLocator.parse text with
          | error error => rfl
          | ok locator =>
              simp only [Program.eval_bind]
              cases (Api.resolveCommit locator credential).eval answer <;> rfl

private theorem materialize_forgets [Sha256] :
    (session.forget.materialize request credential).eval answer =
      (((session.materialize request credential).eval answer).1,
        ((session.materialize request credential).eval answer).2.forget) := by
  have held : session.forget.bare.snapshot request = session.snapshot request := rfl
  unfold Uncached.materialize Session.materialize
  rw [Program.eval_bind, held]
  cases session.snapshot request with
  | none => rfl
  | some pair =>
      obtain ⟨snapshot, locator⟩ := pair
      dsimp only
      cases locator.isRoot with
      | true => rfl
      | false =>
          simp only [Bool.false_eq_true, if_false, Program.eval_bind]
          cases (Api.enumerateTree locator snapshot credential).eval answer with
          | error error => rfl
          | ok tree =>
              dsimp only
              cases tree.entries.find? fun entry => entry.path = locator.path with
              | none => rfl
              | some entry =>
                  simp only [Program.eval_bind]
                  cases (Api.readBlob locator entry.blobId credential).eval answer <;> rfl

private theorem materialize_still [Sha256] :
    ((session.materialize request credential).eval answer).2 = session := by
  have cases := Session.materialize_yields_iff.mp
    ((session.materialize request credential).run_yields (fixed answer) ())
  rw [← Program.run_fixed]
  exact cases.2

/-- How a request that may list is answered by the two sessions: without a listing, or
by one function of the listing, which the reference asks for afresh. -/
private inductive Alongside : Outcome × Session → Outcome × Uncached → Prop
  | silent (outcome : Outcome) : Alongside (outcome, session) (outcome, session.forget)
  | listing {snapshot : String} {locator : GitHubLocator} {ends : Outcome × Session}
      {ends' : Outcome × Uncached} (outcome : Except ApiError Tree → Outcome) :
      session.resolved.lookup snapshot = some locator →
      ends = (outcome ((session.tree locator snapshot credential).eval answer).1,
        ((session.tree locator snapshot credential).eval answer).2) →
      ends' = (outcome (listing (answer (treeGet locator snapshot credential)) credential.isSome),
        session.forget) →
      Alongside ends ends'

private def enumerated : Except ApiError Tree → Outcome
  | .error error => refuse error.code error.reason
  | .ok tree => reply (.enumerate tree.entries)

def fileRead (locator : GitHubLocator) (path : String) : Except ApiError Tree → Outcome
  | .error error => refuse error.code error.reason
  | .ok tree =>
      match tree.entries.find? fun entry => entry.path = path with
      | none => refuse .sourceUnavailable "that snapshot contains no such path"
      | some entry =>
          match (Api.readBlob locator entry.blobId credential).eval answer with
          | .error error => refuse error.code error.reason
          | .ok content => replyWith (.read content.len) content

private theorem eval_found {σ : Type} (locator : GitHubLocator) (path : String) (tree : Tree)
    (after : σ) :
    Program.eval answer (match tree.entries.find? fun entry => entry.path = path with
      | none => pure (refuse .sourceUnavailable "that snapshot contains no such path", after)
      | some entry => do
          match ← Api.readBlob locator entry.blobId credential with
          | .error error => return (refuse error.code error.reason, after)
          | .ok content => return (replyWith (.read content.len) content, after)) =
      (fileRead answer credential locator path (.ok tree), after) := by
  dsimp only [fileRead]
  cases tree.entries.find? fun entry => entry.path = path with
  | none => rfl
  | some entry =>
      simp only [Program.eval_bind]
      cases (Api.readBlob locator entry.blobId credential).eval answer <;> rfl

theorem eval_read {snapshot path : String} {locator : GitHubLocator}
    (named : session.snapshot request = some (snapshot, locator))
    (stated : request.strAt "path" = some path) :
    (session.read request credential).eval answer =
      (fileRead answer credential locator path
          ((session.tree locator snapshot credential).eval answer).1,
        ((session.tree locator snapshot credential).eval answer).2) := by
  unfold Session.read
  simp only [named, stated, Program.eval_bind]
  cases ((session.tree locator snapshot credential).eval answer).1 with
  | error error => rfl
  | ok tree => exact eval_found answer credential locator path tree _

private theorem enumerate_alongside :
    Alongside answer session credential ((session.enumerate request credential).eval answer)
      ((session.forget.enumerate request credential).eval answer) := by
  have same : session.forget.bare.snapshot request = session.snapshot request := rfl
  unfold Uncached.enumerate Session.enumerate
  rw [same]
  cases named : session.snapshot request with
  | none => exact .silent _
  | some pair =>
      obtain ⟨snapshot, locator⟩ := pair
      refine .listing enumerated (Session.snapshot_eq_some_iff.mp named).2 ?_ ?_
      · simp only [Program.eval_bind]
        cases ((session.tree locator snapshot credential).eval answer).1 <;> rfl
      · simp only [Program.eval_bind, eval_enumerateTree]
        cases listing (answer (treeGet locator snapshot credential)) credential.isSome <;> rfl

private theorem read_alongside :
    Alongside answer session credential ((session.read request credential).eval answer)
      ((session.forget.read request credential).eval answer) := by
  have same : session.forget.bare.snapshot request = session.snapshot request := rfl
  unfold Uncached.read
  rw [same]
  cases named : session.snapshot request with
  | none =>
      rw [Session.read, named]
      exact .silent _
  | some pair =>
      obtain ⟨snapshot, locator⟩ := pair
      cases stated : request.strAt "path" with
      | none =>
          simp only [Session.read, named, stated]
          exact .silent _
      | some path =>
          refine .listing (fileRead answer credential locator path)
            (Session.snapshot_eq_some_iff.mp named).2
            (eval_read answer session request credential named stated) ?_
          simp only [Program.eval_bind, eval_enumerateTree]
          cases listing (answer (treeGet locator snapshot credential)) credential.isSome with
          | error error => rfl
          | ok tree => exact eval_found answer credential locator path tree _

variable {answer session credential}

private theorem Alongside.forgets {ends : Outcome × Session} {ends' : Outcome × Uncached}
    (h : Alongside answer session credential ends ends') :
    ends.2.forget = session.forget ∧ ends'.2 = session.forget := by
  cases h with
  | silent outcome => exact ⟨rfl, rfl⟩
  | listing outcome held first second =>
      subst first second
      exact ⟨tree_forgets answer session credential _ _, rfl⟩

private theorem Alongside.agrees {ends : Outcome × Session} {ends' : Outcome × Uncached}
    (h : Alongside answer session credential ends ends')
    (fresh : Fresh answer session credential) : ends.1 = ends'.1 := by
  cases h with
  | silent outcome => rfl
  | listing outcome held first second =>
      subst first second
      exact congrArg outcome (tree_fresh fresh held)

variable (answer session credential)

private def defined : List String := ["handshake", "resolve", "enumerate", "read", "materialize"]

variable {session credential} in
private theorem handle_undefined [Sha256] {line kind : String} {request : Value}
    (admitted : admission session.handshaken line = .ok (request, some kind))
    (undefined : kind ∉ defined) :
    session.handle line credential = .done (refuse .requestInvalid
      ("`" ++ kind ++ "` is not a request this version defines"), session) := by
  rw [Session.handle, admitted]
  dsimp only
  split <;> simp_all [defined]

variable {credential} in
private theorem uncached_undefined [Sha256] {session : Uncached} {line kind : String}
    {request : Value} (admitted : admission session.handshaken line = .ok (request, some kind))
    (undefined : kind ∉ defined) :
    session.handle line credential = .done (refuse .requestInvalid
      ("`" ++ kind ++ "` is not a request this version defines"), session) := by
  rw [Uncached.handle, admitted]
  dsimp only
  split <;> simp_all [defined]

private theorem handle_cases [Sha256] (line : String)
    {motive : Program Get Answer (Outcome × Session) → Program Get Answer (Outcome × Uncached) →
      Prop}
    (done : ∀ outcome session', motive (.done (outcome, session'))
      (.done (outcome, session'.forget)))
    (resolve : ∀ request, motive (session.resolve request credential)
      (session.forget.resolve request credential))
    (enumerate : ∀ request, motive (session.enumerate request credential)
      (session.forget.enumerate request credential))
    (read : ∀ request, motive (session.read request credential)
      (session.forget.read request credential))
    (materialize : ∀ request, motive (session.materialize request credential)
      (session.forget.materialize request credential)) :
    motive (session.handle line credential) (session.forget.handle line credential) := by
  cases admitted : admission session.handshaken line with
  | error outcome =>
      have admitted' : admission session.forget.handshaken line = .error outcome := admitted
      rw [Session.handle, Uncached.handle, admitted, admitted']
      exact done outcome session
  | ok pair =>
      obtain ⟨request, kind⟩ := pair
      have admitted' : admission session.forget.handshaken line = .ok (request, kind) := admitted
      cases kind with
      | none =>
          rw [Session.handle, Uncached.handle, admitted, admitted']
          exact done _ session
      | some kind =>
          by_cases known : kind ∈ defined
          · simp only [defined, List.mem_cons, List.not_mem_nil, or_false] at known
            rw [Session.handle, Uncached.handle, admitted, admitted']
            rcases known with rfl | rfl | rfl | rfl | rfl
            · exact done _ { session with handshaken := true }
            · exact resolve request
            · exact enumerate request
            · exact read request
            · exact materialize request
          · rw [handle_undefined admitted known, uncached_undefined admitted' known]
            exact done _ session

private theorem handle_forgets [Sha256] (line : String) :
    ((session.handle line credential).eval answer).2.forget =
      ((session.forget.handle line credential).eval answer).2 := by
  refine handle_cases session credential line (motive := fun program program' =>
    (program.eval answer).2.forget = (program'.eval answer).2) (fun _ _ => rfl)
      (fun request => ?_) (fun request => ?_) (fun request => ?_) fun request => ?_
  · rw [resolve_forgets]
  · obtain ⟨kept, still⟩ := (enumerate_alongside answer session request credential).forgets
    rw [kept, still]
  · obtain ⟨kept, still⟩ := (read_alongside answer session request credential).forgets
    rw [kept, still]
  · rw [materialize_forgets]

variable {answer session credential}

/-- While what is kept is fresh, a request is answered as if nothing were kept. -/
private theorem handle_agrees [Sha256] (fresh : Fresh answer session credential) (line : String) :
    ((session.handle line credential).eval answer).1 =
      ((session.forget.handle line credential).eval answer).1 := by
  refine handle_cases session credential line (motive := fun program program' =>
    (program.eval answer).1 = (program'.eval answer).1) (fun _ _ => rfl)
      (fun request => ?_) (fun request => (enumerate_alongside _ _ request _).agrees fresh)
      (fun request => (read_alongside _ _ request _).agrees fresh) fun request => ?_
  · rw [resolve_forgets]
  · rw [materialize_forgets]

end

section

variable [SerdeJson] [Sha256]

def uncachedHistory {W : Type} (host : Http.Host W) (world : W) (requests : List Request) :
    List (Turn Uncached Request Outcome Get Answer) :=
  Uncached.serving.turns host world .new requests

def ActsOnSnapshot (line : String) : Prop :=
  ∃ document kind, admission true line = .ok (document, some kind) ∧ kind ∈ snapshotKinds

variable {answer : Get → Answer} {credential : Option String}

private theorem acts_still {line : String} (acts : ActsOnSnapshot line) (session : Uncached) :
    ((session.handle line credential).eval answer).2 = session := by
  obtain ⟨document, kind, admitted, hkind⟩ := acts
  have other : kind ≠ "handshake" := by
    rintro rfl
    simp [snapshotKinds] at hkind
  cases ready : session.handshaken with
  | false =>
      have refused := admission_unready admitted other
      rw [Uncached.handle, ready, refused]
      rfl
  | true =>
      rcases mem_snapshotKinds_iff.mp hkind with rfl | rfl | rfl
      · rw [Uncached.handle, ready, admitted]
        exact (enumerate_alongside answer session.bare document credential).forgets.2
      · rw [Uncached.handle, ready, admitted]
        exact (read_alongside answer session.bare document credential).forgets.2
      · rw [Uncached.handle, ready, admitted]
        have same := materialize_forgets answer session.bare document credential
        rw [materialize_still] at same
        exact congrArg Prod.snd same

private theorem resolvedIn_iff {requests : List Request} {commit : String}
    {locator : GitHubLocator} :
    ResolvedIn (history (fixed answer) () requests) commit locator ↔
      ∃ past future, requests = past ++ future ∧
        (Session.serving.reached answer .new past).resolved.lookup commit = some locator := by
  constructor
  · intro h
    obtain ⟨turn, hturn, -, _, resolves⟩ := h
    obtain ⟨final, chain⟩ := history_chain (fixed answer) () requests
    obtain ⟨past, future, rfl, -, after⟩ := Machine.mem_turns_fixed hturn
    obtain ⟨before, later, split⟩ := List.append_of_mem hturn
    rw [split] at chain
    refine ⟨past ++ [turn.input], future, by simp, ?_⟩
    rw [← after, (takes_resolves chain.cut.2.1 resolves).1]
    exact AList.lookup_insert _
  · intro h
    obtain ⟨past, future, rfl, held⟩ := h
    have recorded := chain_recorded (Machine.chain_reached Session.serving answer .new past)
    obtain ⟨turn, hturn, resolved⟩ := recorded.held held
    refine ⟨turn, ?_, resolved⟩
    rw [history, Machine.turns_fixed_append]
    exact List.mem_append_left _ hturn

/-- Tree requests for one commit are answered alike, to whichever of the repositories
that were resolved to it they are sent. -/
def Addressed (answer : Get → Answer) (credential : Option String)
    (turns : List SessionTurn) : Prop :=
  ∀ commit first second, ResolvedIn turns commit first → ResolvedIn turns commit second →
    answer (treeGet first commit credential) = answer (treeGet second commit credential)

theorem fresh_reached {lines : List String}
    (addressed : Addressed answer credential (history (fixed answer) () (asked credential lines)))
    {past future : List Request} (split : asked credential lines = past ++ future) :
    Fresh answer (Session.serving.reached answer .new past) credential := by
  intro snapshot locator tree held kept
  have recorded := chain_recorded (Machine.chain_reached Session.serving answer .new past)
  obtain ⟨source, turn, hturn, given, lists⟩ := (recorded.trees snapshot tree).mp kept
  obtain ⟨earlier, later, rfl, before, -⟩ := Machine.mem_turns_fixed hturn
  have own : turn.input.credential = credential := by
    have mem : turn.input ∈ asked credential lines := by simp [split]
    obtain ⟨line, -, hline⟩ := List.mem_map.mp mem
    rw [← hline]
  obtain ⟨_, _, -, -, named⟩ := lists.admitted
  have sourced := (Session.snapshot_eq_some_iff.mp named).2
  obtain ⟨rest, exchanged⟩ := lists.asked
  have answered : given = answer (treeGet source snapshot turn.input.credential) :=
    Machine.turns_fixed_exchanges hturn _ (by rw [exchanged]; exact List.mem_cons_self)
  have alike := addressed snapshot locator source (resolvedIn_iff.mpr ⟨_, _, split, held⟩)
    (resolvedIn_iff.mpr ⟨earlier, turn.input :: later ++ future, by simp [split], before ▸ sourced⟩)
  have listed := lists.listed
  rw [answered, own, ← alike] at listed
  exact listed

private theorem forgets (session : Session) (request : Request) :
    Session.forget ((Session.serving session request).eval answer).2 =
      ((Uncached.serving session.forget request).eval answer).2 :=
  handle_forgets answer session request.credential request.line

private theorem outputs_uncached {lines : List String}
    (addressed : Addressed answer credential (history (fixed answer) () (asked credential lines))) :
    (history (fixed answer) () (asked credential lines)).map Turn.output =
      Uncached.serving.outputs answer .new (asked credential lines) := by
  have agrees (past : List Request) (request : Request) (future : List Request)
      (split : asked credential lines = past ++ request :: future) :
      ((Session.serving (Session.serving.reached answer .new past) request).eval answer).1 =
        ((Uncached.serving (Session.serving.reached answer .new past).forget request).eval
          answer).1 := by
    have mem : request ∈ asked credential lines := by simp [split]
    obtain ⟨line, -, rfl⟩ := List.mem_map.mp mem
    exact handle_agrees (fresh_reached addressed split) line
  rw [history, Machine.turns_fixed_output]
  exact Machine.outputs_forget forgets agrees

private theorem resolved_reached (requests : List Request) :
    (Session.serving.reached answer .new requests).resolved =
      (Uncached.serving.reached answer .new requests).resolved :=
  congrArg Uncached.resolved (Machine.reached_forget forgets Session.new requests)

private theorem asked_still {lines : List String} (acts : ∀ line ∈ lines, ActsOnSnapshot line)
    (session : Uncached) : ∀ request ∈ asked credential lines,
      ((Uncached.serving session request).eval answer).2 = session := by
  intro request mem
  obtain ⟨line, hline, rfl⟩ := List.mem_map.mp mem
  exact acts_still (acts line hline) session

omit [SerdeJson] [Sha256] in
theorem asked_append (first second : List String) :
    asked credential (first ++ second) = asked credential first ++ asked credential second :=
  List.map_append

private theorem addressed_reordered {before block block' after : List String}
    (acts : ∀ line ∈ block, ActsOnSnapshot line) (acts' : ∀ line ∈ block', ActsOnSnapshot line)
    (addressed : Addressed answer credential
      (history (fixed answer) () (asked credential (before ++ block ++ after)))) :
    Addressed answer credential
      (history (fixed answer) () (asked credential (before ++ block' ++ after))) := by
  have moved {commit : String} {locator : GitHubLocator}
      (resolved : ResolvedIn
        (history (fixed answer) () (asked credential (before ++ block' ++ after))) commit locator) :
      ResolvedIn (history (fixed answer) () (asked credential (before ++ block ++ after)))
        commit locator := by
    obtain ⟨past, future, split, held⟩ := resolvedIn_iff.mp resolved
    rw [asked_append, asked_append] at split
    obtain ⟨past', future', split', same⟩ :=
      Machine.reached_prefix (asked_still acts) (asked_still acts') split
    rw [resolved_reached, ← same, ← resolved_reached] at held
    rw [← asked_append, ← asked_append] at split'
    exact resolvedIn_iff.mpr ⟨past', future', split', held⟩
  intro commit first second hfirst hsecond
  exact addressed commit first second (moved hfirst) (moved hsecond)

/-- Before a host that answers by a function, and tree requests for one commit alike:
the session answers as the reference does, and requests between two resolves are
answered each for itself, in whatever order they come. -/
theorem tree_cache_transparent {lines : List String}
    (addressed : Addressed answer credential (history (fixed answer) () (asked credential lines))) :
    (history (fixed answer) () (asked credential lines)).map Turn.output =
        (uncachedHistory (fixed answer) () (asked credential lines)).map Turn.output ∧
      ∀ before block after, lines = before ++ block ++ after →
        (∀ line ∈ block, ActsOnSnapshot line) →
          ∃ first outcome last, first.length = before.length ∧ ∀ block', block'.Perm block →
            (history (fixed answer) () (asked credential (before ++ block' ++ after))).map
              Turn.output = first ++ block'.map outcome ++ last := by
  constructor
  · rw [outputs_uncached addressed, uncachedHistory, Machine.turns_fixed_output]
  · rintro before block after rfl acts
    let start := Uncached.serving.reached answer .new (asked credential before)
    refine ⟨Uncached.serving.outputs answer .new (asked credential before),
      fun line => ((Uncached.serving start ⟨line, credential⟩).eval answer).1,
      Uncached.serving.outputs answer start (asked credential after), ?_, ?_⟩
    · rw [Machine.length_outputs, asked, List.length_map]
    · intro block' reordered
      have acts' : ∀ line ∈ block', ActsOnSnapshot line :=
        fun line hline => acts line (reordered.mem_iff.mp hline)
      have still : ∀ request ∈ asked credential block',
          ((Uncached.serving start request).eval answer).2 = start := asked_still acts' start
      obtain ⟨stays, puts⟩ := Machine.play_still Uncached.serving answer still
      rw [outputs_uncached (addressed_reordered acts acts' addressed), asked_append, asked_append,
        Machine.outputs_append, Machine.outputs_append, Machine.reached_append, stays, puts]
      simp only [asked, List.map_map]
      rfl

end

section

attribute [local instance] Json.compact sha2

def uniformDocument : Value :=
  .object [("sha", .string "c"), ("tree", .array [itemDocument file])]

def uniformBody : Bytes := ⟨written uniformDocument, by decide +kernel⟩

/-- A host that names one commit for every ref and one listing for every commit. -/
def uniform (get : Get) : Answer :=
  if get.accept = Api.rawMediaType then found fileBody else found uniformBody

def uniformLines : List String :=
  [Call.handshake.line, (Call.resolve "github://o/r/a?ref=m").line,
    (Call.resolve "github://f/r/a?ref=m").line, (Call.enumerate "c").line,
    (Call.read "c" "a").line, (Call.enumerate "c").line]

theorem tree_cache_transparent_uniform :
    (history (fixed uniform) () (asked none uniformLines)).map Turn.output =
        (uncachedHistory (fixed uniform) () (asked none uniformLines)).map Turn.output ∧
      ∀ before block after, uniformLines = before ++ block ++ after →
        (∀ line ∈ block, ActsOnSnapshot line) →
          ∃ first outcome last, first.length = before.length ∧ ∀ block', block'.Perm block →
            (history (fixed uniform) () (asked none (before ++ block' ++ after))).map
              Turn.output = first ++ block'.map outcome ++ last := by
  have addressed : Addressed uniform none (history (fixed uniform) () (asked none uniformLines)) :=
    fun commit first second _ _ => rfl
  exact tree_cache_transparent addressed

end

end GitHubProvider.Serve
