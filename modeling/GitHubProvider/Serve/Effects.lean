/- How one request can change the session, and the two maps it can write. -/

import GitHubProvider.Api.Answers
import GitHubProvider.Serve.Resolution

set_option autoImplicit false
set_option relaxedAutoImplicit false

namespace GitHubProvider.Serve

open Api (ApiError Tree blobGet commitGet listing namedCommit treeGet)
open Http (Answer Get Host)
open Interaction (Machine Program Turn)
open Json (SerdeJson Value)
open Locator (GitHubLocator)

variable [SerdeJson]

/-- An answer from which a commit is held: a resolve of the locator asked for its
commit, and the host named one. -/
structure Resolves (session : Session) (request : Request) (exchanges : Exchanges)
    (commit : String) (locator : GitHubLocator) (answer : Answer) : Prop where
  admitted : ∃ document text, admission session.handshaken request.line =
      .ok (document, some "resolve") ∧ document.strAt "locator" = some text ∧
    Session.carriesSecret document = false ∧ GitHubLocator.parse text = .ok locator
  asked : exchanges = [(commitGet locator request.credential, answer)]
  named : namedCommit answer request.credential.isSome = .ok commit

/-- An answer from which a listing is kept: an enumerate or a read of a snapshot
without one asked for its tree first of all, and the host listed it. -/
structure Lists (session : Session) (request : Request) (exchanges : Exchanges)
    (snapshot : String) (locator : GitHubLocator) (tree : Tree) (answer : Answer) : Prop where
  admitted : ∃ document kind,
    admission session.handshaken request.line = .ok (document, some kind) ∧
      kind ∈ ["enumerate", "read"] ∧ session.snapshot document = some (snapshot, locator)
  absent : session.trees.lookup snapshot = none
  asked : ∃ rest, exchanges = (treeGet locator snapshot request.credential, answer) :: rest
  listed : listing answer request.credential.isSome = .ok tree

inductive Effect (session : Session) (request : Request) (exchanges : Exchanges)
    (outcome : Outcome) : Session → Prop
  | unchanged : Effect session request exchanges outcome session
  | handshaken {document : Value} :
      admission session.handshaken request.line = .ok (document, some "handshake") →
      exchanges = [] → outcome = reply .handshake →
      Effect session request exchanges outcome { session with handshaken := true }
  | resolved {commit : String} {locator : GitHubLocator} {answer : Answer} :
      Resolves session request exchanges commit locator answer →
      outcome = reply (.resolve commit locator.toString) →
      Effect session request exchanges outcome (session.hold commit locator)
  | listed {snapshot : String} {locator : GitHubLocator} {tree : Tree} {answer : Answer} :
      Lists session request exchanges snapshot locator tree answer →
      Effect session request exchanges outcome (session.keep snapshot tree)

namespace Session

private theorem tree_effect {session after : Session} {request : Request} {document : Value}
    {kind snapshot : String} {locator : GitHubLocator} {exchanges rest : Exchanges}
    {result : Except ApiError Tree} {outcome : Outcome}
    (admitted : admission session.handshaken request.line = .ok (document, some kind))
    (hkind : kind ∈ ["enumerate", "read"])
    (held : session.snapshot document = some (snapshot, locator))
    (h : session.TreeCase locator snapshot request.credential exchanges result after) :
    Effect session request (exchanges ++ rest) outcome after := by
  cases h with
  | held | failed => exact .unchanged
  | listed absent listed =>
      exact .listed ⟨⟨document, kind, admitted, hkind, held⟩, absent, ⟨rest, rfl⟩, listed⟩

theorem handle_effect [Sha256] {session after : Session} {request : Request}
    {exchanges : Exchanges} {outcome : Outcome}
    (h : session.HandleCase request.line request.credential exchanges outcome after) :
    Effect session request exchanges outcome after := by
  cases h with
  | refused | materialize | undefined | unnamed => exact .unchanged
  | handshake admitted => exact .handshaken admitted rfl rfl
  | resolve admitted cases =>
      cases cases with
      | unnamed | secret | unread | failed => exact .unchanged
      | resolved named clean parsed resolved =>
          exact .resolved ⟨⟨_, _, admitted, named, clean, parsed⟩, rfl, resolved⟩ rfl
  | enumerate admitted cases =>
      cases cases with
      | notResolved => exact .unchanged
      | failed held tree | listed held tree =>
          rw [← List.append_nil exchanges]
          exact tree_effect admitted (by simp) held tree
  | read admitted cases =>
      cases cases with
      | notResolved | unnamed => exact .unchanged
      | failed held named tree | absent held named tree missing =>
          rw [← List.append_nil exchanges]
          exact tree_effect admitted (by simp) held tree
      | refused held named tree | answered held named tree =>
          exact tree_effect admitted (by simp) held tree

end Session

abbrev SessionTurn := Turn Session Request Outcome Get Answer

theorem takes_cases [Sha256] {turn : SessionTurn} (h : Session.serving.Takes turn) :
    turn.before.HandleCase turn.input.line turn.input.credential turn.exchanges turn.output
      turn.after :=
  Session.handle_yields_iff.mp h

theorem takes_effect [Sha256] {turn : SessionTurn} (h : Session.serving.Takes turn) :
    Effect turn.before turn.input turn.exchanges turn.output turn.after :=
  Session.handle_effect (takes_cases h)

section

variable [Sha256] {turn : SessionTurn} {snapshot : String} {locator : GitHubLocator} {tree : Tree}
  {answer : Answer}

theorem takes_keeps_trees (h : Session.serving.Takes turn)
    (held : turn.before.trees.lookup snapshot = some tree) :
    turn.after.trees.lookup snapshot = some tree := by
  have effect := takes_effect h
  generalize turn.after = after at effect
  cases effect with
  | unchanged | handshaken | resolved => exact held
  | @listed fresh _ _ _ lists =>
      have other : snapshot ≠ fresh := by
        rintro rfl
        simp [lists.absent] at held
      simpa [AList.lookup_insert_ne other] using held

theorem takes_keeps_resolved (h : Session.serving.Takes turn)
    (held : turn.before.resolved.lookup snapshot ≠ none) :
    turn.after.resolved.lookup snapshot ≠ none := by
  have effect := takes_effect h
  generalize turn.after = after at effect
  cases effect with
  | unchanged | handshaken | listed => exact held
  | @resolved commit _ _ _ _ =>
      by_cases same : snapshot = commit
      · simp [same]
      · simpa [AList.lookup_insert_ne same] using held

variable {document : Value}

theorem takes_handshake (h : Session.serving.Takes turn)
    (admitted : admission turn.before.handshaken turn.input.line =
      .ok (document, some "handshake")) :
    turn.after = { turn.before with handshaken := true } ∧ turn.exchanges = [] ∧
      turn.output = reply .handshake := by
  simp only [Machine.Takes, Session.serving, Session.handle, admitted] at h
  obtain ⟨exchanges, ends⟩ := Program.yields_done.mp h
  exact ⟨congrArg Prod.snd ends, exchanges, congrArg Prod.fst ends⟩

theorem takes_resolve (h : Session.serving.Takes turn)
    (admitted : admission turn.before.handshaken turn.input.line = .ok (document, some "resolve")) :
    turn.before.ResolveCase document turn.input.credential turn.exchanges turn.output
      turn.after := by
  simp only [Machine.Takes, Session.serving, Session.handle, admitted] at h
  exact Session.resolve_yields_iff.mp h

theorem takes_enumerate (h : Session.serving.Takes turn)
    (admitted : admission turn.before.handshaken turn.input.line =
      .ok (document, some "enumerate")) :
    turn.before.EnumerateCase document turn.input.credential turn.exchanges turn.output
      turn.after := by
  simp only [Machine.Takes, Session.serving, Session.handle, admitted] at h
  exact Session.enumerate_yields_iff.mp h

theorem takes_read (h : Session.serving.Takes turn)
    (admitted : admission turn.before.handshaken turn.input.line = .ok (document, some "read")) :
    turn.before.ReadCase document turn.input.credential turn.exchanges turn.output
      turn.after := by
  simp only [Machine.Takes, Session.serving, Session.handle, admitted] at h
  exact Session.read_yields_iff.mp h

theorem takes_materialize (h : Session.serving.Takes turn)
    (admitted : admission turn.before.handshaken turn.input.line =
      .ok (document, some "materialize")) :
    turn.before.MaterializeCase document turn.input.credential turn.exchanges turn.output ∧
      turn.after = turn.before := by
  simp only [Machine.Takes, Session.serving, Session.handle, admitted] at h
  exact Session.materialize_yields_iff.mp h

theorem takes_resolve_reply (serde : Faithful) (h : Session.serving.Takes turn)
    {canonical : String} (output : turn.output = reply (.resolve snapshot canonical)) :
    ∃ locator answer, canonical = locator.toString ∧
      Resolves turn.before turn.input turn.exchanges snapshot locator answer := by
  have cases := takes_cases h
  have other (answer : Reply) (content : Bytes) (differ : answer ≠ .resolve snapshot canonical) :
      replyWith answer content ≠ reply (.resolve snapshot canonical) :=
    fun same => differ (serde.replyWith_inj.mp same).1
  generalize turn.exchanges = exchanges, turn.after = after at cases ⊢
  rw [output] at cases
  generalize houtcome : reply (.resolve snapshot canonical) = outcome at cases
  cases cases with
  | refused refused =>
      rcases admission_error refused with rfl | ⟨code, message, rfl⟩
      · simp [reply, replyWith] at houtcome
      · exact absurd houtcome.symm (other _ _ (by simp))
  | handshake | undefined | unnamed => exact absurd houtcome.symm (other _ _ (by simp))
  | resolve admitted cases =>
      subst houtcome
      obtain ⟨text, locator, answer, named, clean, parsed, asked, committed, hcanonical, -⟩ :=
        Session.resolve_reply serde cases
      exact ⟨locator, answer, hcanonical, ⟨_, _, admitted, named, clean, parsed⟩, asked, committed⟩
  | enumerate _ cases | read _ cases | materialize _ cases =>
      cases cases <;> exact absurd houtcome.symm (other _ _ (by simp))

def snapshotKinds : List String := ["enumerate", "read", "materialize"]

omit [SerdeJson] [Sha256] in
theorem mem_snapshotKinds_iff {kind : String} :
    kind ∈ snapshotKinds ↔ kind = "enumerate" ∨ kind = "read" ∨ kind = "materialize" := by
  simp [snapshotKinds]

/-- The listing a blob is looked up in: one the session holds for the snapshot, or one
the host gave for it among these exchanges. -/
def Supplies (session : Session) (credential : Option String) (exchanges : Exchanges)
    (snapshot : String) (locator : GitHubLocator) (tree : Tree) : Prop :=
  session.trees.lookup snapshot = some tree ∨
    ∃ answer, (treeGet locator snapshot credential, answer) ∈ exchanges ∧
      listing answer credential.isSome = .ok tree

def SnapshotGet (session : Session) (credential : Option String) (exchanges : Exchanges)
    (snapshot : String) (locator : GitHubLocator) (get : Get) : Prop :=
  get = treeGet locator snapshot credential ∨
    ∃ tree, Supplies session credential exchanges snapshot locator tree ∧
      ∃ entry ∈ tree.entries, get = blobGet locator entry.blobId credential

omit [Sha256] in
private theorem tree_asks {session after : Session} {credential : Option String}
    {exchanges : Exchanges} {result : Except ApiError Tree} (more : Exchanges)
    (h : session.TreeCase locator snapshot credential exchanges result after) :
    (∀ e ∈ exchanges, e.1 = treeGet locator snapshot credential) ∧
      ∀ tree, result = .ok tree →
        Supplies session credential (exchanges ++ more) snapshot locator tree := by
  cases h with
  | held held =>
      refine ⟨by simp, ?_⟩
      rintro _ ⟨⟩
      exact .inl held
  | failed => simp
  | listed _ listed =>
      refine ⟨by simp, ?_⟩
      rintro _ ⟨⟩
      exact .inr ⟨_, by simp, listed⟩

omit [Sha256] in
private theorem read_asks {session after : Session} {credential : Option String}
    {exchanges : Exchanges} {outcome : Outcome}
    (held : session.snapshot document = some (snapshot, locator))
    (h : session.ReadCase document credential exchanges outcome after) :
    ∀ e ∈ exchanges, SnapshotGet session credential exchanges snapshot locator e.1 := by
  cases h with
  | notResolved | unnamed => simp
  | failed held' _ tree | absent held' _ tree =>
      obtain ⟨rfl, rfl⟩ := Session.snapshot_unique held held'
      exact fun e he => .inl ((tree_asks [] tree).1 e he)
  | refused held' _ tree found | answered held' _ tree found =>
      obtain ⟨rfl, rfl⟩ := Session.snapshot_unique held held'
      intro e he
      rcases List.mem_append.mp he with he | he
      · exact .inl ((tree_asks [] tree).1 e he)
      · obtain rfl := List.mem_singleton.mp he
        exact .inr ⟨_, (tree_asks _ tree).2 _ rfl, _, List.mem_of_find?_eq_some found, rfl⟩

theorem takes_asks (h : Session.serving.Takes turn) {kind : String}
    (admitted : admission turn.before.handshaken turn.input.line = .ok (document, some kind))
    (hkind : kind ∈ snapshotKinds)
    (held : turn.before.snapshot document = some (snapshot, locator)) :
    ∀ e ∈ turn.exchanges,
      SnapshotGet turn.before turn.input.credential turn.exchanges snapshot locator e.1 := by
  rcases mem_snapshotKinds_iff.mp hkind with rfl | rfl | rfl
  · have cases := takes_enumerate h admitted
    generalize turn.after = after, turn.exchanges = exchanges, turn.output = output at cases ⊢
    cases cases with
    | notResolved => simp
    | failed held' tree | listed held' tree =>
        obtain ⟨rfl, rfl⟩ := Session.snapshot_unique held held'
        exact fun e he => .inl ((tree_asks [] tree).1 e he)
  · exact read_asks held (takes_read h admitted)
  · have cases := (takes_materialize h admitted).1
    generalize turn.exchanges = exchanges, turn.output = output at cases ⊢
    cases cases with
    | notResolved | root => simp
    | failed held' | absent held' =>
        obtain ⟨rfl, rfl⟩ := Session.snapshot_unique held held'
        simp [SnapshotGet]
    | refused held' _ listed found | answered held' _ listed found =>
        obtain ⟨rfl, rfl⟩ := Session.snapshot_unique held held'
        intro e he
        simp only [List.mem_cons, List.not_mem_nil, or_false] at he
        rcases he with rfl | rfl
        · exact .inl rfl
        · exact .inr ⟨_, .inr ⟨_, by simp, listed⟩, _, List.mem_of_find?_eq_some found, rfl⟩

theorem takes_notResolved (h : Session.serving.Takes turn) {kind : String}
    (admitted : admission turn.before.handshaken turn.input.line = .ok (document, some kind))
    (hkind : kind ∈ snapshotKinds) (unresolved : turn.before.snapshot document = none) :
    turn.exchanges = [] ∧ turn.output = Session.notResolved ∧ turn.after = turn.before := by
  rcases mem_snapshotKinds_iff.mp hkind with rfl | rfl | rfl <;>
    simp only [Machine.Takes, Session.serving, Session.handle, admitted, Session.enumerate,
      Session.read, Session.materialize, unresolved] at h <;>
    obtain ⟨exchanges, ends⟩ := Program.yields_done.mp h <;>
    exact ⟨exchanges, congrArg Prod.fst ends, congrArg Prod.snd ends⟩

/-- A turn that asks the host anything resolves a locator, and asks for its commit
only, or acts on a snapshot the session resolved. -/
theorem takes_get (h : Session.serving.Takes turn) {e : Get × Answer} (he : e ∈ turn.exchanges) :
    (∃ document text locator, admission turn.before.handshaken turn.input.line =
        .ok (document, some "resolve") ∧
      document.strAt "locator" = some text ∧ GitHubLocator.parse text = .ok locator ∧
      turn.exchanges = [e] ∧ e.1 = commitGet locator turn.input.credential) ∨
    ∃ document kind snapshot locator, admission turn.before.handshaken turn.input.line =
        .ok (document, some kind) ∧ kind ∈ snapshotKinds ∧
      turn.before.snapshot document = some (snapshot, locator) ∧
      SnapshotGet turn.before turn.input.credential turn.exchanges snapshot locator e.1 := by
  have of_snapshot {document : Value} {kind : String}
      (admitted : admission turn.before.handshaken turn.input.line = .ok (document, some kind))
      (hkind : kind ∈ snapshotKinds) :
      ∃ snapshot locator, turn.before.snapshot document = some (snapshot, locator) ∧
        SnapshotGet turn.before turn.input.credential turn.exchanges snapshot locator e.1 := by
    cases held : turn.before.snapshot document with
    | none =>
        have silent := (takes_notResolved h admitted hkind held).1
        simp [silent] at he
    | some pair => exact ⟨pair.1, pair.2, rfl, takes_asks h admitted hkind held e he⟩
  have cases := takes_cases h
  generalize turn.after = after, turn.output = output, hexchanges : turn.exchanges = exchanges
    at cases
  rw [hexchanges] at he
  cases cases with
  | refused | handshake | undefined | unnamed => simp at he
  | resolve admitted cases =>
      left
      cases cases with
      | unnamed | secret | unread => simp at he
      | failed named _ parsed | resolved named _ parsed =>
          obtain rfl := List.mem_singleton.mp he
          exact ⟨_, _, _, admitted, named, parsed, rfl, rfl⟩
  | enumerate admitted | read admitted | materialize admitted =>
      right
      obtain ⟨snapshot, locator, held, asked⟩ := of_snapshot admitted (by simp [snapshotKinds])
      exact ⟨_, _, snapshot, locator, admitted, by simp [snapshotKinds], held, hexchanges ▸ asked⟩

theorem takes_resolves (h : Session.serving.Takes turn)
    (resolves : Resolves turn.before turn.input turn.exchanges snapshot locator answer) :
    turn.after = turn.before.hold snapshot locator ∧
      turn.output = reply (.resolve snapshot locator.toString) := by
  obtain ⟨⟨document, text, admitted, named, clean, parsed⟩, asked, committed⟩ := resolves
  have cases := takes_resolve h admitted
  generalize turn.after = after, turn.exchanges = exchanges, turn.output = output at cases asked
  cases cases with
  | unnamed | secret | unread => simp at asked
  | failed named' _ parsed' failed =>
      obtain rfl := Option.some.inj (named.symm.trans named')
      simp only [List.cons.injEq, Prod.mk.injEq] at asked
      simp [asked.1.2, committed] at failed
  | resolved named' _ parsed' committed' =>
      obtain rfl := Option.some.inj (named.symm.trans named')
      obtain rfl := Except.ok.inj (parsed.symm.trans parsed')
      simp only [List.cons.injEq, Prod.mk.injEq] at asked
      rw [asked.1.2] at committed'
      obtain rfl := Except.ok.inj (committed.symm.trans committed')
      exact ⟨rfl, rfl⟩

omit [Sha256] in
private theorem tree_lists {session after : Session} {credential : Option String}
    {exchanges more rest : Exchanges} {result : Except ApiError Tree}
    (absent : session.trees.lookup snapshot = none)
    (listed : listing answer credential.isSome = .ok tree)
    (asked : exchanges ++ more = (treeGet locator snapshot credential, answer) :: rest)
    (h : session.TreeCase locator snapshot credential exchanges result after) :
    after = session.keep snapshot tree := by
  cases h with
  | held held => simp [absent] at held
  | failed _ failed =>
      simp only [List.cons_append, List.cons.injEq, Prod.mk.injEq] at asked
      simp [asked.1.2, listed] at failed
  | listed _ listed' =>
      simp only [List.cons_append, List.cons.injEq, Prod.mk.injEq] at asked
      rw [asked.1.2] at listed'
      obtain rfl := Except.ok.inj (listed.symm.trans listed')
      rfl

theorem takes_lists (h : Session.serving.Takes turn)
    (lists : Lists turn.before turn.input turn.exchanges snapshot locator tree answer) :
    turn.after = turn.before.keep snapshot tree := by
  obtain ⟨⟨document, kind, admitted, hkind, held⟩, absent, ⟨rest, asked⟩, listed⟩ := lists
  simp only [List.mem_cons, List.not_mem_nil, or_false] at hkind
  rcases hkind with rfl | rfl
  · have cases := takes_enumerate h admitted
    generalize turn.after = after, turn.exchanges = exchanges, turn.output = output at cases asked
    cases cases with
    | notResolved unresolved => simp [held] at unresolved
    | failed held' tree | listed held' tree =>
        obtain ⟨rfl, rfl⟩ := Session.snapshot_unique held held'
        rw [← List.append_nil exchanges] at asked
        exact tree_lists absent listed asked tree
  · have cases := takes_read h admitted
    generalize turn.after = after, turn.exchanges = exchanges, turn.output = output at cases asked
    cases cases with
    | notResolved unresolved => simp [held] at unresolved
    | unnamed => simp at asked
    | failed held' _ tree | absent held' _ tree =>
        obtain ⟨rfl, rfl⟩ := Session.snapshot_unique held held'
        rw [← List.append_nil exchanges] at asked
        exact tree_lists absent listed asked tree
    | refused held' _ tree | answered held' _ tree =>
        obtain ⟨rfl, rfl⟩ := Session.snapshot_unique held held'
        exact tree_lists absent listed asked tree

end

def history [Sha256] {W : Type} (host : Host W) (world : W) (requests : List Request) :
    List SessionTurn :=
  Session.serving.turns host world .new requests

theorem history_chain [Sha256] {W : Type} (host : Host W) (world : W)
    (requests : List Request) :
    ∃ final, Session.serving.Chain .new (history host world requests) final :=
  Machine.chain_turns _ _ _ _ _

end GitHubProvider.Serve
