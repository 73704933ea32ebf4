/- What a snapshot identifier refers to, over a whole session. -/

import GitHubProvider.Serve.Calls
import GitHubProvider.Serve.History

set_option autoImplicit false
set_option relaxedAutoImplicit false

namespace GitHubProvider.Serve

open Api (Tree accepted blobGet listing rawMediaType treeGet)
open Http (Host)
open Json (SerdeJson Value)
open Locator (GitHubLocator)

section

variable [SerdeJson] [Sha256]

/-- The turn resolves a locator to a commit that the session holds for another one. -/
def Rebinds (turn : SessionTurn) : Prop :=
  ∃ commit locator answer held,
    Resolves turn.before turn.input turn.exchanges commit locator answer ∧
      turn.before.resolved.lookup commit = some held ∧ held ≠ locator

structure ActsOn (snapshot : String) (locator : GitHubLocator) (turn : SessionTurn) : Prop where
  held : turn.before.resolved.lookup snapshot = some locator
  kept : turn.after.resolved.lookup snapshot = some locator
  resolved {canonical : String} :
    turn.output = reply (.resolve snapshot canonical) → canonical = locator.toString
  asked {document : Value} {kind : String} :
    admission turn.before.handshaken turn.input.line = .ok (document, some kind) →
    kind ∈ snapshotKinds → document.strAt "snapshot" = some snapshot →
    ∀ e ∈ turn.exchanges,
      SnapshotGet turn.before turn.input.credential turn.exchanges snapshot locator e.1
  materialized {document : Value} {bytes : UInt64} {contentDigest : String} {content : Bytes} :
    admission turn.before.handshaken turn.input.line = .ok (document, some "materialize") →
    document.strAt "snapshot" = some snapshot →
    turn.output = replyWith (.materialize bytes contentDigest) content →
    ∃ answer tree entry blob response,
      turn.exchanges = [(treeGet locator snapshot turn.input.credential, answer),
        (blobGet locator entry.blobId turn.input.credential, blob)] ∧
      listing answer turn.input.credential.isSome = .ok tree ∧
      (tree.entries.find? fun entry => entry.path = locator.path) = some entry ∧
      accepted blob turn.input.credential.isSome = .ok response ∧ content = response.body

theorem takes_keeps_locator {turn : SessionTurn} (h : Session.serving.Takes turn)
    (clean : ¬ Rebinds turn) {snapshot : String} {locator : GitHubLocator}
    (held : turn.before.resolved.lookup snapshot = some locator) :
    turn.after.resolved.lookup snapshot = some locator := by
  have effect := takes_effect h
  generalize hafter : turn.after = after at effect
  cases effect with
  | unchanged | handshaken | listed => exact held
  | @resolved commit other answer resolves _ =>
      by_cases same : snapshot = commit
      · subst same
        have unchanged : locator = other := by
          by_contra differ
          exact clean ⟨snapshot, other, answer, locator, resolves, held, differ⟩
        simp [unchanged]
      · simpa [AList.lookup_insert_ne same] using held

theorem takes_actsOn (serde : Faithful) {turn : SessionTurn} (h : Session.serving.Takes turn)
    (clean : ¬ Rebinds turn) {snapshot : String} {locator : GitHubLocator}
    (held : turn.before.resolved.lookup snapshot = some locator) :
    ActsOn snapshot locator turn := by
  refine ⟨held, takes_keeps_locator h clean held, ?_, ?_, ?_⟩
  · intro canonical output
    obtain ⟨other, answer, rfl, resolves⟩ := takes_resolve_reply serde h output
    by_contra differ
    refine clean ⟨snapshot, other, answer, locator, resolves, held, ?_⟩
    rintro rfl
    exact differ rfl
  · intro document kind admitted hkind named
    exact takes_asks h admitted hkind (Session.snapshot_eq_some_iff.mpr ⟨named, held⟩)
  · intro document bytes contentDigest content admitted named output
    have cases := (takes_materialize h admitted).1
    have snapshot_held := Session.snapshot_eq_some_iff.mpr ⟨named, held⟩
    generalize turn.exchanges = exchanges at cases ⊢
    rw [output] at cases
    generalize houtcome : replyWith (.materialize bytes contentDigest) content = outcome at cases
    cases cases with
    | notResolved | root | failed | absent | refused =>
        exact absurd (serde.replyWith_inj.mp houtcome).1 (by simp)
    | answered held' _ listed found judged =>
        obtain ⟨rfl, rfl⟩ := Session.snapshot_unique snapshot_held held'
        exact ⟨_, _, _, _, _, rfl, listed, found, judged, (serde.replyWith_inj.mp houtcome).2⟩

private theorem chain_actsOn (serde : Faithful) {start final : Session}
    {future : List SessionTurn} (h : Session.serving.Chain start future final)
    (clean : ∀ turn ∈ future, ¬ Rebinds turn) {snapshot : String} {locator : GitHubLocator}
    (held : start.resolved.lookup snapshot = some locator) :
    ∀ later ∈ future, ActsOn snapshot locator later := by
  induction h with
  | nil => simp
  | @cons turn rest final taken _ ih =>
      have acts := takes_actsOn serde taken (clean turn (by simp)) held
      intro later hlater
      rcases List.mem_cons.mp hlater with rfl | hrest
      · exact acts
      · exact ih (fun turn hturn => clean turn (by simp [hturn])) acts.kept later hrest

/-- What a snapshot was resolved to is what every later request that names it acts on. -/
def MeaningKept (turns : List SessionTurn) : Prop :=
  ∀ past turn future snapshot canonical, turns = past ++ turn :: future →
    turn.output = reply (.resolve snapshot canonical) →
    ∃ locator : GitHubLocator, locator.toString = canonical ∧
      turn.after.resolved.lookup snapshot = some locator ∧
      ∀ later ∈ future, ActsOn snapshot locator later

private theorem meaningKept_of_clean (serde : Faithful) {turns : List SessionTurn}
    {final : Session} (chain : Session.serving.Chain .new turns final)
    (clean : ∀ turn ∈ turns, ¬ Rebinds turn) : MeaningKept turns := by
  rintro past turn future snapshot canonical rfl resolved
  obtain ⟨-, taken, rest⟩ := chain.cut
  obtain ⟨locator, answer, rfl, resolves⟩ := takes_resolve_reply serde taken resolved
  have held : turn.after.resolved.lookup snapshot = some locator := by
    simp [(takes_resolves taken resolves).1]
  exact ⟨locator, rfl, held,
    chain_actsOn serde rest (fun turn hturn => clean turn (by simp [hturn])) held⟩

private theorem clean_of_meaningKept {turns : List SessionTurn} {final : Session}
    (chain : Session.serving.Chain .new turns final) (kept : MeaningKept turns) :
    ∀ turn ∈ turns, ¬ Rebinds turn := by
  rintro turn hturn ⟨commit, locator, answer, held, resolves, hheld, differ⟩
  obtain ⟨past, future, rfl⟩ := List.append_of_mem hturn
  obtain ⟨before, taken, -⟩ := chain.cut
  -- the turn that resolved the commit to what is held for it
  obtain ⟨earlier, hearlier, output, -⟩ := (chain_recorded before).held hheld
  obtain ⟨first, second, rfl⟩ := List.append_of_mem hearlier
  obtain ⟨locator', -, -, acts⟩ :=
    kept first earlier (second ++ turn :: future) commit _ (by simp) output
  have acted := acts turn (by simp)
  obtain rfl := Option.some.inj (hheld.symm.trans acted.held)
  have rebound := acted.kept
  rw [(takes_resolves taken resolves).1] at rebound
  simp only [Session.hold_resolved, AList.lookup_insert, Option.some.injEq] at rebound
  exact differ rebound.symm

/-- Snapshots keep their meaning in exactly the runs in which no turn rebinds one. -/
theorem snapshot_keeps_its_meaning_iff (serde : Faithful) {W : Type} (host : Host W) (world : W)
    (requests : List Request) :
    MeaningKept (history host world requests) ↔
      ∀ turn ∈ history host world requests, ¬ Rebinds turn := by
  obtain ⟨final, chain⟩ := history_chain host world requests
  exact ⟨clean_of_meaningKept chain, meaningKept_of_clean serde chain⟩

end

section

attribute [local instance] Json.compact sha2

theorem snapshot_keeps_its_meaning_ordinary :
    replayed ordinary = ordinary ∧
      (MeaningKept (replayed ordinary) ↔ ∀ turn ∈ replayed ordinary, ¬ Rebinds turn) :=
  ⟨replayed_eq ordinary_chain, snapshot_keeps_its_meaning_iff faithful_compact _ _ _⟩

/-- The fork takes the place of its parent. -/
theorem snapshot_rebound :
    ¬ MeaningKept (replayed forked) := by
  rw [replayed_eq forked_chain]
  intro kept
  obtain ⟨locator, canonical, -, acts⟩ :=
    kept [opening] resolving [enumerating, forking, forkReading] "c" parent.toString rfl rfl
  have held := (acts forkReading (by simp)).held
  obtain rfl : fork = locator := Option.some.inj held
  exact absurd canonical (by decide)

end

section

variable [SerdeJson] [Sha256]

def SameRepository (first second : GitHubLocator) : Prop :=
  first.owner = second.owner ∧ first.repository = second.repository

/-- The turn resolves a locator to a commit of which the session keeps a listing and
which it holds for a locator of another repository. -/
def Crosses (turn : SessionTurn) : Prop :=
  ∃ commit locator answer tree held,
    Resolves turn.before turn.input turn.exchanges commit locator answer ∧
      turn.before.trees.lookup commit = some tree ∧
      turn.before.resolved.lookup commit = some held ∧ ¬ SameRepository held locator

/-- Every listing kept is one of the repository its snapshot now stands for. -/
def Coherent (past : List SessionTurn) (session : Session) : Prop :=
  ∀ snapshot tree, session.trees.lookup snapshot = some tree →
    ∃ locator lister, session.resolved.lookup snapshot = some locator ∧
      ListedIn past snapshot lister tree ∧ SameRepository lister locator

def ListedBy (turns : List SessionTurn) (snapshot : String) (lister : GitHubLocator)
    (tree : Tree) : Prop :=
  ∃ turn ∈ turns, ∃ answer,
    (treeGet lister snapshot turn.input.credential, answer) ∈ turn.exchanges ∧
      listing answer turn.input.credential.isSome = .ok tree

/-- Every blob is asked of the repository whose listing of the snapshot names it. -/
def PairsBlobs (past : List SessionTurn) (turn : SessionTurn) : Prop :=
  ∀ e ∈ turn.exchanges, e.1.accept = rawMediaType →
    ∃ snapshot locator lister tree, turn.before.resolved.lookup snapshot = some locator ∧
      ListedBy (past ++ [turn]) snapshot lister tree ∧ SameRepository lister locator ∧
      ∃ entry ∈ tree.entries, e.1 = blobGet locator entry.blobId turn.input.credential

private theorem coherent_step (past : List SessionTurn) (turn : SessionTurn)
    (h : Coherent past turn.before) (taken : Session.serving.Takes turn)
    (clean : ¬ Crosses turn) : Coherent (past ++ [turn]) turn.after := by
  have effect := takes_effect taken
  intro snapshot tree kept
  simp only [listedIn_snoc]
  generalize turn.after = after at effect kept ⊢
  cases effect with
  | unchanged | handshaken =>
      obtain ⟨locator, lister, held, listed, same⟩ := h snapshot tree kept
      exact ⟨locator, lister, held, .inl listed, same⟩
  | @resolved commit other answer resolves _ =>
      obtain ⟨locator, lister, held, listed, same⟩ := h snapshot tree kept
      by_cases hcommit : snapshot = commit
      · subst hcommit
        have still : SameRepository locator other := by
          by_contra differ
          exact clean ⟨snapshot, other, answer, tree, locator, resolves, kept, held, differ⟩
        exact ⟨other, lister, by simp, .inl listed, same.1.trans still.1, same.2.trans still.2⟩
      · exact ⟨locator, lister, by simpa [AList.lookup_insert_ne hcommit] using held,
          .inl listed, same⟩
  | @listed fresh locator tree' answer lists =>
      obtain ⟨document, kind, -, -, named⟩ := lists.admitted
      by_cases hfresh : snapshot = fresh
      · subst hfresh
        simp only [Session.keep_trees, AList.lookup_insert, Option.some.injEq] at kept
        subst kept
        exact ⟨locator, locator, (Session.snapshot_eq_some_iff.mp named).2, .inr ⟨answer, lists⟩,
          rfl, rfl⟩
      · rw [Session.keep_trees, AList.lookup_insert_ne hfresh] at kept
        obtain ⟨locator, lister, held, listed, same⟩ := h snapshot tree kept
        exact ⟨locator, lister, held, .inl listed, same⟩

omit [Sha256] in
private theorem ListedIn.listedBy {past : List SessionTurn} {snapshot : String}
    {lister : GitHubLocator} {tree : Tree} (h : ListedIn past snapshot lister tree) :
    ListedBy past snapshot lister tree := by
  obtain ⟨turn, hturn, answer, lists⟩ := h
  obtain ⟨rest, asked⟩ := lists.asked
  exact ⟨turn, hturn, answer, by simp [asked], lists.listed⟩

private theorem pairsBlobs_of_coherent {past : List SessionTurn} {turn : SessionTurn}
    (h : Coherent past turn.before) (taken : Session.serving.Takes turn) :
    PairsBlobs past turn := by
  intro e he raw
  rcases takes_get taken he with ⟨_, _, _, -, -, -, -, hget⟩ |
    ⟨document, kind, snapshot, locator, admitted, hkind, named,
      hget | ⟨tree, supplies, entry, hentry, hget⟩⟩
  · rw [hget] at raw
    exact absurd raw Api.json_ne_raw
  · rw [hget] at raw
    exact absurd raw Api.json_ne_raw
  have held := (Session.snapshot_eq_some_iff.mp named).2
  rcases supplies with kept | ⟨answer, asked, listed⟩
  · obtain ⟨locator', lister, held', listed, same⟩ := h snapshot tree kept
    obtain rfl := Option.some.inj (held.symm.trans held')
    obtain ⟨earlier, hearlier, answer, asked, gave⟩ := listed.listedBy
    exact ⟨snapshot, locator, lister, tree, held,
      ⟨earlier, by simp [hearlier], answer, asked, gave⟩, same, entry, hentry, hget⟩
  · exact ⟨snapshot, locator, locator, tree, held, ⟨turn, by simp, answer, asked, listed⟩,
      ⟨rfl, rfl⟩, entry, hentry, hget⟩

def MapsCoherent (turns : List SessionTurn) : Prop :=
  ∀ past turn future, turns = past ++ turn :: future →
    Coherent past turn.before ∧ Coherent (past ++ [turn]) turn.after ∧ PairsBlobs past turn

private theorem mapsCoherent_of_clean {turns : List SessionTurn} {final : Session}
    (chain : Session.serving.Chain .new turns final) (clean : ∀ turn ∈ turns, ¬ Crosses turn) :
    MapsCoherent turns := by
  rintro past turn future rfl
  obtain ⟨before, taken, -⟩ := chain.cut
  have coherent : Coherent past turn.before :=
    before.preserves Coherent (by simp [Coherent, Session.new]) (fun turn => ¬ Crosses turn)
      (fun turn hturn => clean turn (by simp [hturn])) coherent_step
  exact ⟨coherent, coherent_step past turn coherent taken (clean turn (by simp)),
    pairsBlobs_of_coherent coherent taken⟩

private theorem clean_of_mapsCoherent {turns : List SessionTurn} {final : Session}
    (chain : Session.serving.Chain .new turns final) (coherent : MapsCoherent turns) :
    ∀ turn ∈ turns, ¬ Crosses turn := by
  rintro turn hturn ⟨commit, locator, answer, tree, held, resolves, kept, hheld, differ⟩
  obtain ⟨past, future, rfl⟩ := List.append_of_mem hturn
  obtain ⟨before, taken, rest⟩ := chain.cut
  have through : Session.serving.Chain .new (past ++ [turn]) turn.after :=
    before.append (.cons taken (.nil _))
  obtain ⟨coherent_before, coherent_after, -⟩ := coherent past turn future rfl
  obtain ⟨held', lister, hheld', listed, same⟩ := coherent_before commit tree kept
  obtain rfl := Option.some.inj (hheld.symm.trans hheld')
  obtain ⟨locator', lister', hlocator', listed', same'⟩ :=
    coherent_after commit tree (takes_keeps_trees taken kept)
  obtain ⟨rfl, -⟩ := chain_listedIn_unique through (listedIn_snoc.mpr (.inl listed)) listed'
  rw [(takes_resolves taken resolves).1] at hlocator'
  simp only [Session.hold_resolved, AList.lookup_insert, Option.some.injEq] at hlocator'
  subst hlocator'
  exact differ ⟨same.1.symm.trans same'.1, same.2.symm.trans same'.2⟩

/-- The two maps stay coherent in exactly the runs in which no turn crosses repositories. -/
theorem maps_stay_coherent_iff {W : Type} (host : Host W) (world : W)
    (requests : List Request) :
    MapsCoherent (history host world requests) ↔
      ∀ turn ∈ history host world requests, ¬ Crosses turn := by
  obtain ⟨final, chain⟩ := history_chain host world requests
  exact ⟨clean_of_mapsCoherent chain, mapsCoherent_of_clean chain⟩

end

section

attribute [local instance] Json.compact sha2

/-- The fork's blobs are asked for by the identifiers of its parent's listing. -/
theorem maps_crossed :
    ¬ MapsCoherent (replayed forked) := by
  rw [replayed_eq forked_chain]
  intro coherent
  obtain ⟨-, -, pairs⟩ := coherent [opening, resolving, enumerating, forking] forkReading [] rfl
  obtain ⟨snapshot, locator, lister, tree, held, ⟨turn, hturn, answer, asked, -⟩, same, -⟩ :=
    pairs (Api.blobGet fork "b" none, found fileBody) (by simp [forkReading, readTurn, file]) rfl
  have of_fork : snapshot = "c" ∧ locator = fork := by
    by_cases hc : snapshot = "c"
    · subst hc
      exact ⟨rfl, (Option.some.inj held).symm⟩
    · have missing : forkReading.before.resolved.lookup snapshot = none :=
        (AList.lookup_insert_ne hc).trans
          ((AList.lookup_insert_ne hc).trans (AList.lookup_empty snapshot))
      simp [missing] at held
  obtain ⟨rfl, rfl⟩ := of_fork
  -- no tree of the fork was ever asked for
  have tree_of_fork (credential : Option String) :
      treeGet lister "c" credential = treeGet fork "c" credential := by
    simp [treeGet, Api.treeUrl, same.1, same.2]
  rw [tree_of_fork] at asked
  simp only [List.mem_append, List.mem_cons, List.not_mem_nil, or_false] at hturn
  rcases hturn with (rfl | rfl | rfl | rfl) | rfl
  · cases asked
  all_goals
    have get := (Prod.mk.inj (List.mem_singleton.mp asked)).1
    exact absurd (congrArg Http.Get.url get) (by decide)

end

end GitHubProvider.Serve
