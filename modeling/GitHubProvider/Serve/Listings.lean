/- One snapshot, one listing: what a session does with the listings it obtains. -/

import GitHubProvider.Serve.History

set_option autoImplicit false
set_option relaxedAutoImplicit false

namespace GitHubProvider.Serve

open Api (Tree blobGet listing treeGet)
open Http (Answer Host)
open Json (SerdeJson Value)
open Locator (GitHubLocator)

variable [SerdeJson] [Sha256]

def listingKinds : List String := ["enumerate", "read"]

/-- The turn is an enumerate or a read of the snapshot that asked for its tree and was
given the answer. -/
def Attempts (turn : SessionTurn) (snapshot : String) (answer : Answer) : Prop :=
  ∃ document kind locator rest,
    admission turn.before.handshaken turn.input.line = .ok (document, some kind) ∧
      kind ∈ listingKinds ∧ document.strAt "snapshot" = some snapshot ∧
      turn.exchanges = (treeGet locator snapshot turn.input.credential, answer) :: rest

/-- How a turn treats a snapshot of which the session obtained a listing. -/
structure Settled (snapshot : String) (tree : Tree) (turn : SessionTurn) : Prop where
  silent {document : Value} {kind : String} :
    admission turn.before.handshaken turn.input.line = .ok (document, some kind) →
    kind ∈ listingKinds → document.strAt "snapshot" = some snapshot →
    ∀ e ∈ turn.exchanges, ∀ locator commit credential, e.1 ≠ treeGet locator commit credential
  enumerates {document : Value} :
    admission turn.before.handshaken turn.input.line = .ok (document, some "enumerate") →
    document.strAt "snapshot" = some snapshot →
    turn.exchanges = [] ∧ turn.output = reply (.enumerate tree.entries)
  refuses {document : Value} {path : String} :
    admission turn.before.handshaken turn.input.line = .ok (document, some "read") →
    document.strAt "snapshot" = some snapshot → document.strAt "path" = some path →
    ((tree.entries.find? fun entry => entry.path = path) = none ↔ turn.exchanges = [] ∧
      turn.output = refuse .sourceUnavailable "that snapshot contains no such path")
  reads {document : Value} {path : String} {entry : Api.TreeEntry} :
    admission turn.before.handshaken turn.input.line = .ok (document, some "read") →
    document.strAt "snapshot" = some snapshot → document.strAt "path" = some path →
    (tree.entries.find? fun entry => entry.path = path) = some entry →
    ∃ locator answer, turn.before.resolved.lookup snapshot = some locator ∧
      turn.exchanges = [(blobGet locator entry.blobId turn.input.credential, answer)]

def AsksAgain (snapshot : String) (turn : SessionTurn) : Prop :=
  ∀ document kind,
    admission turn.before.handshaken turn.input.line = .ok (document, some kind) →
    kind = "enumerate" ∨ kind = "read" ∧ document.strAt "path" ≠ none →
    document.strAt "snapshot" = some snapshot →
    ∃ locator answer rest, turn.before.resolved.lookup snapshot = some locator ∧
      turn.exchanges = (treeGet locator snapshot turn.input.credential, answer) :: rest

/-- A listing obtained is the listing for the rest of the session, and until one is
obtained the host is asked again. -/
def OneListing (turns : List SessionTurn) : Prop :=
  ∀ past turn future snapshot, turns = past ++ turn :: future →
    (∀ earlier ∈ past, ∀ answer tree, Attempts earlier snapshot answer →
      listing answer earlier.input.credential.isSome = .ok tree → Settled snapshot tree turn) ∧
    (turn.before.resolved.lookup snapshot ≠ none →
      (∀ earlier ∈ past, ∀ answer, Attempts earlier snapshot answer →
        ∃ error, listing answer earlier.input.credential.isSome = .error error) →
      AsksAgain snapshot turn)

variable {turn : SessionTurn} {snapshot : String} {tree : Tree}

omit [SerdeJson] [Sha256] in
private theorem blobGet_ne_treeGet {locator locator' : GitHubLocator} {blobId commit : String}
    {credential credential' : Option String} :
    blobGet locator blobId credential ≠ treeGet locator' commit credential' := by
  intro same
  exact Api.json_ne_raw (congrArg Http.Get.accept same).symm

theorem takes_enumerate_kept (h : Session.serving.Takes turn) {document : Value}
    (admitted : admission turn.before.handshaken turn.input.line =
      .ok (document, some "enumerate"))
    (named : document.strAt "snapshot" = some snapshot)
    (resolved : turn.before.resolved.lookup snapshot ≠ none)
    (kept : turn.before.trees.lookup snapshot = some tree) :
    turn.exchanges = [] ∧ turn.output = reply (.enumerate tree.entries) := by
  obtain ⟨locator, held⟩ := Option.ne_none_iff_exists'.mp resolved
  have request_held := Session.snapshot_eq_some_iff.mpr ⟨named, held⟩
  have cases := takes_enumerate h admitted
  generalize turn.exchanges = exchanges, turn.output = output, turn.after = after at cases ⊢
  cases cases with
  | notResolved unresolved => simp [request_held] at unresolved
  | failed held' listed =>
      obtain ⟨rfl, rfl⟩ := Session.snapshot_unique request_held held'
      cases listed with
      | failed absent => simp [kept] at absent
  | listed held' listed =>
      obtain ⟨rfl, rfl⟩ := Session.snapshot_unique request_held held'
      cases listed with
      | listed absent => simp [kept] at absent
      | held kept' =>
          obtain rfl := Option.some.inj (kept.symm.trans kept')
          exact ⟨rfl, rfl⟩

theorem takes_read_unnamed (h : Session.serving.Takes turn) {document : Value}
    (admitted : admission turn.before.handshaken turn.input.line = .ok (document, some "read"))
    (unnamed : document.strAt "path" = none) : turn.exchanges = [] := by
  have cases := takes_read h admitted
  generalize turn.exchanges = exchanges, turn.output = output, turn.after = after at cases ⊢
  cases cases with
  | notResolved | unnamed => rfl
  | failed _ named | absent _ named | refused _ named | answered _ named =>
      simp [unnamed] at named

theorem takes_read_kept (h : Session.serving.Takes turn) {document : Value} {path : String}
    (admitted : admission turn.before.handshaken turn.input.line = .ok (document, some "read"))
    (named : document.strAt "snapshot" = some snapshot)
    (path_named : document.strAt "path" = some path) {locator : GitHubLocator}
    (held : turn.before.resolved.lookup snapshot = some locator)
    (kept : turn.before.trees.lookup snapshot = some tree) :
    ((tree.entries.find? fun entry => entry.path = path) = none ∧ turn.exchanges = [] ∧
        turn.output = refuse .sourceUnavailable "that snapshot contains no such path") ∨
      ∃ entry answer, (tree.entries.find? fun entry => entry.path = path) = some entry ∧
        turn.exchanges = [(blobGet locator entry.blobId turn.input.credential, answer)] := by
  have request_held := Session.snapshot_eq_some_iff.mpr ⟨named, held⟩
  have cases := takes_read h admitted
  generalize turn.exchanges = exchanges, turn.output = output, turn.after = after at cases ⊢
  cases cases with
  | notResolved unresolved => simp [request_held] at unresolved
  | unnamed _ unnamed => simp [path_named] at unnamed
  | failed held' _ listed =>
      obtain ⟨rfl, rfl⟩ := Session.snapshot_unique request_held held'
      cases listed with
      | failed absent => simp [kept] at absent
  | absent held' path_named' listed missing =>
      obtain ⟨rfl, rfl⟩ := Session.snapshot_unique request_held held'
      obtain rfl := Option.some.inj (path_named.symm.trans path_named')
      cases listed with
      | listed absent => simp [kept] at absent
      | held kept' =>
          obtain rfl := Option.some.inj (kept.symm.trans kept')
          exact .inl ⟨missing, rfl, rfl⟩
  | refused held' path_named' listed found | answered held' path_named' listed found =>
      obtain ⟨rfl, rfl⟩ := Session.snapshot_unique request_held held'
      obtain rfl := Option.some.inj (path_named.symm.trans path_named')
      cases listed with
      | listed absent => simp [kept] at absent
      | held kept' =>
          obtain rfl := Option.some.inj (kept.symm.trans kept')
          exact .inr ⟨_, _, found, rfl⟩

omit [Sha256] in
private theorem tree_attempt {session after : Session} {locator asker : GitHubLocator}
    {credential : Option String} {exchanges more rest : Exchanges} {answer : Answer}
    {result : Except Api.ApiError Tree}
    (h : session.TreeCase locator snapshot credential exchanges result after)
    (hmore : ∀ e ∈ more, e.1.accept = Api.rawMediaType)
    (asked : exchanges ++ more = (treeGet asker snapshot credential, answer) :: rest) :
    session.trees.lookup snapshot = none ∧
      exchanges ++ more = (treeGet locator snapshot credential, answer) :: more := by
  cases h with
  | held =>
      simp only [List.nil_append] at asked
      have raw := hmore (treeGet asker snapshot credential, answer) (by simp [asked])
      exact absurd raw Api.json_ne_raw
  | failed absent | listed absent =>
      simp only [List.cons_append, List.nil_append, List.cons.injEq, Prod.mk.injEq] at asked
      simp [absent, asked.1.2]

theorem lists_of_attempts (h : Session.serving.Takes turn) {answer : Answer}
    (attempt : Attempts turn snapshot answer)
    (gave : listing answer turn.input.credential.isSome = .ok tree) :
    ∃ locator, Lists turn.before turn.input turn.exchanges snapshot locator tree answer := by
  obtain ⟨document, kind, asker, rest, admitted, hkind, named, asked⟩ := attempt
  suffices held_absent : ∃ locator, turn.before.snapshot document = some (snapshot, locator) ∧
      turn.before.trees.lookup snapshot = none ∧
      ∃ rest, turn.exchanges = (treeGet locator snapshot turn.input.credential, answer) :: rest by
    obtain ⟨locator, held, absent, asked⟩ := held_absent
    exact ⟨locator, ⟨document, kind, admitted, hkind, held⟩, absent, asked, gave⟩
  have same {locator : GitHubLocator} {snapshot' : String}
      (held : turn.before.snapshot document = some (snapshot', locator)) : snapshot' = snapshot :=
    Option.some.inj ((Session.snapshot_eq_some_iff.mp held).1.symm.trans named)
  simp only [listingKinds, List.mem_cons, List.not_mem_nil, or_false] at hkind
  rcases hkind with rfl | rfl
  · have cases := takes_enumerate h admitted
    generalize turn.exchanges = exchanges, turn.output = output, turn.after = after at cases asked ⊢
    cases cases with
    | notResolved => simp at asked
    | failed held listed | listed held listed =>
        obtain rfl := same held
        rw [← List.append_nil exchanges] at asked ⊢
        obtain ⟨absent, first⟩ := tree_attempt listed (by simp) asked
        exact ⟨_, held, absent, _, first⟩
  · have cases := takes_read h admitted
    generalize turn.exchanges = exchanges, turn.output = output, turn.after = after at cases asked ⊢
    cases cases with
    | notResolved | unnamed => simp at asked
    | failed held _ listed | absent held _ listed =>
        obtain rfl := same held
        rw [← List.append_nil exchanges] at asked ⊢
        obtain ⟨absent, first⟩ := tree_attempt listed (by simp) asked
        exact ⟨_, held, absent, _, first⟩
    | refused held _ listed | answered held _ listed =>
        obtain rfl := same held
        obtain ⟨absent, first⟩ := tree_attempt listed (by simp [blobGet]) asked
        exact ⟨_, held, absent, _, first⟩

theorem takes_settled (h : Session.serving.Takes turn)
    (resolved : turn.before.resolved.lookup snapshot ≠ none)
    (kept : turn.before.trees.lookup snapshot = some tree) : Settled snapshot tree turn := by
  obtain ⟨locator, held⟩ := Option.ne_none_iff_exists'.mp resolved
  refine ⟨?_, fun admitted named => takes_enumerate_kept h admitted named resolved kept, ?_, ?_⟩
  · intro document kind admitted hkind named e he asker commit credential
    simp only [listingKinds, List.mem_cons, List.not_mem_nil, or_false] at hkind
    rcases hkind with rfl | rfl
    · simp [(takes_enumerate_kept h admitted named resolved kept).1] at he
    cases path_named : document.strAt "path" with
    | none => simp [takes_read_unnamed h admitted path_named] at he
    | some path =>
        rcases takes_read_kept h admitted named path_named held kept with
          ⟨-, silent, -⟩ | ⟨entry, answer, -, asked⟩
        · simp [silent] at he
        · rw [asked, List.mem_singleton] at he
          rw [he]
          exact blobGet_ne_treeGet
  · intro document path admitted named path_named
    rcases takes_read_kept h admitted named path_named held kept with
      ⟨missing, silent, output⟩ | ⟨entry, answer, found, asked⟩
    · simp [missing, silent, output]
    · simp [found, asked]
  · intro document path entry admitted named path_named found
    rcases takes_read_kept h admitted named path_named held kept with
      ⟨missing, -, -⟩ | ⟨entry', answer, found', asked⟩
    · simp [found] at missing
    · obtain rfl := Option.some.inj (found.symm.trans found')
      exact ⟨locator, answer, held, asked⟩

omit [Sha256] in
private theorem tree_asked {session after : Session} {locator : GitHubLocator}
    {credential : Option String} {exchanges : Exchanges} {result : Except Api.ApiError Tree}
    (h : session.TreeCase locator snapshot credential exchanges result after)
    (absent : session.trees.lookup snapshot = none) :
    ∃ answer, exchanges = [(treeGet locator snapshot credential, answer)] := by
  cases h with
  | held held => simp [absent] at held
  | failed | listed => exact ⟨_, rfl⟩

theorem takes_asksAgain (h : Session.serving.Takes turn)
    (resolved : turn.before.resolved.lookup snapshot ≠ none)
    (absent : turn.before.trees.lookup snapshot = none) : AsksAgain snapshot turn := by
  intro document kind admitted well_formed named
  obtain ⟨locator, held⟩ := Option.ne_none_iff_exists'.mp resolved
  have request_held := Session.snapshot_eq_some_iff.mpr ⟨named, held⟩
  suffices asked : ∃ answer rest,
      turn.exchanges = (treeGet locator snapshot turn.input.credential, answer) :: rest by
    obtain ⟨answer, rest, asked⟩ := asked
    exact ⟨locator, answer, rest, held, asked⟩
  rcases well_formed with rfl | ⟨rfl, path_named⟩
  · have cases := takes_enumerate h admitted
    generalize turn.exchanges = exchanges, turn.output = output, turn.after = after at cases ⊢
    cases cases with
    | notResolved unresolved => simp [request_held] at unresolved
    | failed held' listed | listed held' listed =>
        obtain ⟨rfl, rfl⟩ := Session.snapshot_unique request_held held'
        obtain ⟨answer, rfl⟩ := tree_asked listed absent
        exact ⟨answer, [], rfl⟩
  · have cases := takes_read h admitted
    generalize turn.exchanges = exchanges, turn.output = output, turn.after = after at cases ⊢
    cases cases with
    | notResolved unresolved => simp [request_held] at unresolved
    | unnamed _ unnamed => exact absurd unnamed path_named
    | failed held' _ listed | absent held' _ listed | refused held' _ listed
    | answered held' _ listed =>
        obtain ⟨rfl, rfl⟩ := Session.snapshot_unique request_held held'
        obtain ⟨answer, rfl⟩ := tree_asked listed absent
        exact ⟨answer, _, rfl⟩

/-- Whatever the host does, a session works from one listing of a snapshot. -/
theorem one_listing {W : Type} (host : Host W) (world : W) (requests : List Request) :
    OneListing (history host world requests) := by
  intro past turn future snapshot cut
  obtain ⟨final, chain⟩ := history_chain host world requests
  rw [cut] at chain
  obtain ⟨before, taken, -⟩ := chain.cut
  have recorded := chain_recorded before
  constructor
  · intro earlier hearlier answer tree attempt gave
    obtain ⟨first, second, rfl⟩ := List.append_of_mem hearlier
    obtain ⟨locator, lists⟩ := lists_of_attempts before.cut.2.1 attempt gave
    have kept := (recorded.trees snapshot tree).mpr ⟨locator, earlier, hearlier, answer, lists⟩
    exact takes_settled taken (recorded.keys (by simp [kept])) kept
  · intro resolved failed
    apply takes_asksAgain taken resolved
    by_contra kept
    obtain ⟨tree, kept⟩ := Option.ne_none_iff_exists'.mp kept
    obtain ⟨locator, earlier, hearlier, answer, lists⟩ := (recorded.trees snapshot tree).mp kept
    obtain ⟨document, kind, admitted, hkind, held⟩ := lists.admitted
    obtain ⟨rest, asked⟩ := lists.asked
    obtain ⟨error, herror⟩ := failed earlier hearlier answer
      ⟨document, kind, locator, rest, admitted, hkind, (Session.snapshot_eq_some_iff.mp held).1,
        asked⟩
    simp [lists.listed] at herror

end GitHubProvider.Serve
