/- Where the GETs of a session come from. -/

import GitHubProvider.Api.Answers
import GitHubProvider.Serve.Calls
import GitHubProvider.Serve.History

set_option autoImplicit false
set_option relaxedAutoImplicit false

namespace GitHubProvider.Serve

open Api (Tree blobGet isBlob listing treeGet)
open Http (Answer Get Host)
open Json (SerdeJson Value)
open Locator (GitHubLocator)

/-- The part of a URL after the owner and the repository, up to the next slash. -/
def endpoint (url : String) : List Char := (url.toList.splitOn '/').getD 6 []

def AnsweredIn [SerdeJson] (past : List SessionTurn) (snapshot : String) : Prop :=
  ∃ earlier ∈ past, ∃ canonical, earlier.output = reply (.resolve snapshot canonical)

/-- The identifier is the `sha` of a blob that the answer lists. -/
def NamesBlob [SerdeJson] (answer : Answer) (blobId : String) : Prop :=
  ∃ response document items, answer = .ok response ∧
    SerdeJson.fromSlice response.body.toList = .ok document ∧
    (document.get "tree").bind Value.asArray = some items ∧
    ∃ item ∈ items, isBlob item ∧ item.strAt "sha" = some blobId

section

variable [SerdeJson] [Sha256]

/-- What a turn may ask, given the turns before it. -/
structure Justified (past : List SessionTurn) (turn : SessionTurn) : Prop where
  handshaken : turn.exchanges ≠ [] → HandshakenIn past
  commits : ∀ e ∈ turn.exchanges, endpoint e.1.url = "commits".toList →
    turn.exchanges = [e] ∧ ∃ document,
      admission turn.before.handshaken turn.input.line = .ok (document, some "resolve")
  resolved {document : Value} {kind snapshot : String} :
    admission turn.before.handshaken turn.input.line = .ok (document, some kind) →
    kind ∈ snapshotKinds → document.strAt "snapshot" = some snapshot →
    (turn.exchanges ≠ [] → AnsweredIn past snapshot) ∧
      (turn.output = Session.notResolved ↔ ¬ AnsweredIn past snapshot)
  asked {document : Value} {kind snapshot : String} :
    admission turn.before.handshaken turn.input.line = .ok (document, some kind) →
    kind ∈ snapshotKinds → document.strAt "snapshot" = some snapshot →
    ∀ e ∈ turn.exchanges, ∃ locator, turn.before.resolved.lookup snapshot = some locator ∧
      (e.1 = treeGet locator snapshot turn.input.credential ∨
        ∃ blobId, e.1 = blobGet locator blobId turn.input.credential ∧
          ∃ lister ∈ past ++ [turn], ∃ source answer,
            (treeGet source snapshot lister.input.credential, answer) ∈ lister.exchanges ∧
              NamesBlob answer blobId)

def EveryGetJustified (turns : List SessionTurn) : Prop :=
  ∀ past turn future, turns = past ++ turn :: future → Justified past turn

end

private theorem endpoint_eq {url : String} {owner repository name : List Char}
    (rest : List Char) (howner : '/' ∉ owner) (hrepository : '/' ∉ repository) (hname : '/' ∉ name)
    (h : url.toList = "https:".toList ++ '/' :: ([] ++ '/' :: ("api.github.com".toList ++ '/' ::
      ("repos".toList ++ '/' :: (owner ++ '/' :: (repository ++ '/' :: (name ++ '/' :: rest))))))) :
    endpoint url = name := by
  rw [endpoint, h, List.splitOn_append_cons_self_of_not_mem (by decide),
    List.splitOn_append_cons_self_of_not_mem (by decide),
    List.splitOn_append_cons_self_of_not_mem (by decide),
    List.splitOn_append_cons_self_of_not_mem (by decide),
    List.splitOn_append_cons_self_of_not_mem howner,
    List.splitOn_append_cons_self_of_not_mem hrepository,
    List.splitOn_append_cons_self_of_not_mem hname]
  rfl

section

variable {locator : GitHubLocator}
  (slashes : '/' ∉ locator.owner.toList ∧ '/' ∉ locator.repository.toList)
include slashes

theorem endpoint_commitUrl : endpoint (Api.commitUrl locator) = "commits".toList :=
  endpoint_eq locator.reference.toList slashes.1 slashes.2 (by decide)
    (by simp [Api.commitUrl, Api.apiRoot])

theorem endpoint_treeUrl (commit : String) :
    endpoint (Api.treeUrl locator commit) = "git".toList :=
  endpoint_eq ("trees/".toList ++ commit.toList ++ "?recursive=1".toList) slashes.1 slashes.2
    (by decide) (by simp [Api.treeUrl, Api.apiRoot])

theorem endpoint_blobUrl (blobId : String) :
    endpoint (Api.blobUrl locator blobId) = "git".toList :=
  endpoint_eq ("blobs/".toList ++ blobId.toList) slashes.1 slashes.2 (by decide)
    (by simp [Api.blobUrl, Api.apiRoot])

end

section

variable [SerdeJson] [Sha256] {past : List SessionTurn} {turn : SessionTurn}

omit [Sha256] in
theorem held_wellFormed {session : Session} (h : Recorded past session) {snapshot : String}
    {locator : GitHubLocator} (held : session.resolved.lookup snapshot = some locator) :
    locator.WellFormed := by
  obtain ⟨earlier, -, -, answer, resolves⟩ := h.held held
  obtain ⟨document, text, -, -, -, parsed⟩ := resolves.admitted
  exact GitHubLocator.parse_wellFormed parsed

omit [Sha256] in
theorem namesBlob_of_listing {answer : Answer} {authenticated : Bool} {tree : Tree}
    (h : listing answer authenticated = .ok tree) {entry : Api.TreeEntry}
    (hentry : entry ∈ tree.entries) : NamesBlob answer entry.blobId := by
  obtain ⟨response, document, items, accepted, read, -, hitems, entries⟩ :=
    Api.listing_eq_ok_iff.mp h
  obtain ⟨item, hitem, named⟩ := Api.exists_of_mem_forall₂ entries hentry
  obtain ⟨hmem, blob⟩ := List.mem_filter.mp hitem
  exact ⟨response, document, items, (Api.accepted_eq_ok_iff.mp accepted).1, read, hitems, item,
    hmem, blob, (Api.treeEntry_eq_ok_iff.mp named).2.1⟩

omit [Sha256] in
private theorem tree_code {session after : Session} {locator : GitHubLocator} {snapshot : String}
    {credential : Option String} {exchanges : Exchanges} {error : Api.ApiError}
    (h : session.TreeCase locator snapshot credential exchanges (.error error) after) :
    error.code ∈ Api.hostCodes := by
  cases h with
  | failed _ unlisted => exact Api.listing_code unlisted

theorem takes_not_notResolved (serde : Faithful) (h : Session.serving.Takes turn)
    {document : Value} {kind snapshot : String} {locator : GitHubLocator}
    (admitted : admission turn.before.handshaken turn.input.line = .ok (document, some kind))
    (hkind : kind ∈ snapshotKinds)
    (held : turn.before.snapshot document = some (snapshot, locator)) :
    turn.output ≠ Session.notResolved := by
  have other {answer : Reply} {content : Bytes} (differ : answer ≠ .error .requestInvalid
      "that snapshot was not resolved in this session") :
      replyWith answer content ≠ Session.notResolved :=
    fun same => differ (serde.replyWith_inj.mp same).1
  have failed {error : Api.ApiError} (hcode : error.code ∈ Api.hostCodes) :
      refuse error.code error.reason ≠ Session.notResolved := by
    apply other
    intro same
    simp only [Reply.error.injEq] at same
    rw [same.1] at hcode
    simp [Api.hostCodes] at hcode
  rcases mem_snapshotKinds_iff.mp hkind with rfl | rfl | rfl
  · have cases := takes_enumerate h admitted
    generalize turn.exchanges = exchanges, turn.output = output, turn.after = after at cases ⊢
    cases cases with
    | notResolved unresolved => simp [held] at unresolved
    | failed _ tree => exact failed (tree_code tree)
    | listed => exact other (by simp)
  · have cases := takes_read h admitted
    generalize turn.exchanges = exchanges, turn.output = output, turn.after = after at cases ⊢
    cases cases with
    | notResolved unresolved => simp [held] at unresolved
    | unnamed => exact other (by simp)
    | failed _ _ tree => exact failed (tree_code tree)
    | absent => exact other (by simp)
    | refused _ _ _ _ judged => exact failed (Api.accepted_code judged)
    | answered => exact other (by simp)
  · have cases := (takes_materialize h admitted).1
    generalize turn.exchanges = exchanges, turn.output = output at cases ⊢
    cases cases with
    | notResolved unresolved => simp [held] at unresolved
    | root => exact other (by simp)
    | failed _ _ unlisted => exact failed (Api.listing_code unlisted)
    | absent => exact other (by simp)
    | refused _ _ _ _ judged => exact failed (Api.accepted_code judged)
    | answered => exact other (by simp)

private theorem chain_answered (serde : Faithful) {final : Session}
    (h : Session.serving.Chain .new past final) (snapshot : String) :
    AnsweredIn past snapshot ↔ final.resolved.lookup snapshot ≠ none := by
  have recorded := chain_recorded h
  constructor
  · intro h
    obtain ⟨earlier, hearlier, canonical, output⟩ := h
    obtain ⟨first, second, rfl⟩ := List.append_of_mem hearlier
    obtain ⟨locator, answer, rfl, resolves⟩ := takes_resolve_reply serde h.cut.2.1 output
    exact (recorded.resolved snapshot).mpr ⟨locator, earlier, hearlier, output, answer, resolves⟩
  · intro held
    obtain ⟨locator, earlier, hearlier, output, -⟩ := (recorded.resolved snapshot).mp held
    exact ⟨earlier, hearlier, _, output⟩

private theorem justified_handshaken (recorded : Recorded past turn.before)
    (taken : Session.serving.Takes turn) (asked : turn.exchanges ≠ []) : HandshakenIn past := by
  obtain ⟨e, he⟩ := List.exists_mem_of_ne_nil _ asked
  rw [← recorded.handshaken]
  rcases takes_get taken he with ⟨_, _, _, admitted, -⟩ | ⟨_, kind, _, _, admitted, hkind, -⟩
  · exact handshaken_of_admission admitted (by decide)
  · have other : kind ≠ "handshake" := by
      intro same
      simp [same, snapshotKinds] at hkind
    exact handshaken_of_admission admitted other

private theorem justified_commits (recorded : Recorded past turn.before)
    (taken : Session.serving.Takes turn) {e : Get × Answer} (he : e ∈ turn.exchanges)
    (commits : endpoint e.1.url = "commits".toList) :
    turn.exchanges = [e] ∧ ∃ document,
      admission turn.before.handshaken turn.input.line = .ok (document, some "resolve") := by
  rcases takes_get taken he with ⟨document, _, _, admitted, -, -, only, -⟩ |
    ⟨_, _, snapshot, locator, -, -, named, get⟩
  · exact ⟨only, document, admitted⟩
  · have hl := held_wellFormed recorded (Session.snapshot_eq_some_iff.mp named).2
    have slashes : '/' ∉ locator.owner.toList ∧ '/' ∉ locator.repository.toList :=
      ⟨hl.owner_free '/' (by simp), hl.repository_free '/' (by simp)⟩
    rcases get with get | ⟨_, -, entry, -, get⟩
    · rw [get] at commits
      exact absurd ((endpoint_treeUrl slashes snapshot).symm.trans commits) (by decide)
    · rw [get] at commits
      exact absurd ((endpoint_blobUrl slashes entry.blobId).symm.trans commits) (by decide)

omit [SerdeJson] [Sha256] in
private theorem snapshot_unresolved {session : Session} {document : Value} {snapshot : String}
    (named : document.strAt "snapshot" = some snapshot)
    (absent : session.resolved.lookup snapshot = none) : session.snapshot document = none := by
  simp [Session.snapshot, named, absent]

private theorem justified_resolved (serde : Faithful)
    (answered : ∀ snapshot, AnsweredIn past snapshot ↔ turn.before.resolved.lookup snapshot ≠ none)
    (taken : Session.serving.Takes turn) {document : Value} {kind snapshot : String}
    (admitted : admission turn.before.handshaken turn.input.line = .ok (document, some kind))
    (hkind : kind ∈ snapshotKinds) (named : document.strAt "snapshot" = some snapshot) :
    (turn.exchanges ≠ [] → AnsweredIn past snapshot) ∧
      (turn.output = Session.notResolved ↔ ¬ AnsweredIn past snapshot) := by
  rw [answered]
  cases held : turn.before.resolved.lookup snapshot with
  | none =>
      obtain ⟨silent, output, -⟩ :=
        takes_notResolved taken admitted hkind (snapshot_unresolved named held)
      simp [silent, output]
  | some locator =>
      have request_held := Session.snapshot_eq_some_iff.mpr ⟨named, held⟩
      simp [takes_not_notResolved serde taken admitted hkind request_held]

omit [Sha256] in
private theorem lister_of_supplies (recorded : Recorded past turn.before) {snapshot : String}
    {locator : GitHubLocator} {tree : Tree} {entry : Api.TreeEntry}
    (supplies : Supplies turn.before turn.input.credential turn.exchanges snapshot locator tree)
    (hentry : entry ∈ tree.entries) :
    ∃ lister ∈ past ++ [turn], ∃ source answer,
      (treeGet source snapshot lister.input.credential, answer) ∈ lister.exchanges ∧
        NamesBlob answer entry.blobId := by
  rcases supplies with kept | ⟨answer, asked, listed⟩
  · obtain ⟨source, earlier, hearlier, answer, lists⟩ := (recorded.trees snapshot tree).mp kept
    obtain ⟨rest, asked⟩ := lists.asked
    exact ⟨earlier, by simp [hearlier], source, answer, by simp [asked],
      namesBlob_of_listing lists.listed hentry⟩
  · exact ⟨turn, by simp, locator, answer, asked, namesBlob_of_listing listed hentry⟩

private theorem justified_asked (recorded : Recorded past turn.before)
    (taken : Session.serving.Takes turn) {document : Value} {kind snapshot : String}
    (admitted : admission turn.before.handshaken turn.input.line = .ok (document, some kind))
    (hkind : kind ∈ snapshotKinds) (named : document.strAt "snapshot" = some snapshot)
    {e : Get × Answer} (he : e ∈ turn.exchanges) :
    ∃ locator, turn.before.resolved.lookup snapshot = some locator ∧
      (e.1 = treeGet locator snapshot turn.input.credential ∨
        ∃ blobId, e.1 = blobGet locator blobId turn.input.credential ∧
          ∃ lister ∈ past ++ [turn], ∃ source answer,
            (treeGet source snapshot lister.input.credential, answer) ∈ lister.exchanges ∧
              NamesBlob answer blobId) := by
  cases held : turn.before.resolved.lookup snapshot with
  | none =>
      have silent := (takes_notResolved taken admitted hkind (snapshot_unresolved named held)).1
      simp [silent] at he
  | some locator =>
      refine ⟨locator, rfl, ?_⟩
      have request_held := Session.snapshot_eq_some_iff.mpr ⟨named, held⟩
      rcases takes_asks taken admitted hkind request_held e he with
        get | ⟨tree, supplies, entry, hentry, get⟩
      · exact .inl get
      · exact .inr ⟨entry.blobId, get, lister_of_supplies recorded supplies hentry⟩

private theorem step_justified (serde : Faithful) (recorded : Recorded past turn.before)
    (answered : ∀ snapshot, AnsweredIn past snapshot ↔ turn.before.resolved.lookup snapshot ≠ none)
    (taken : Session.serving.Takes turn) : Justified past turn where
  handshaken := justified_handshaken recorded taken
  commits _ he := justified_commits recorded taken he
  resolved := justified_resolved serde answered taken
  asked admitted hkind named _ he := justified_asked recorded taken admitted hkind named he

/-- Every GET is justified by the history of the session. -/
theorem every_get_justified (serde : Faithful) {W : Type} (host : Host W) (world : W)
    (requests : List Request) : EveryGetJustified (history host world requests) := by
  intro past turn future cut
  obtain ⟨final, chain⟩ := history_chain host world requests
  rw [cut] at chain
  obtain ⟨before, taken, -⟩ := chain.cut
  exact step_justified serde (chain_recorded before) (chain_answered serde before) taken

end

section

attribute [local instance] Json.compact sha2

theorem every_get_justified_ordinary :
    replayed ordinary = ordinary ∧ EveryGetJustified (replayed ordinary) :=
  ⟨replayed_eq ordinary_chain, every_get_justified faithful_compact _ _ _⟩

end

end GitHubProvider.Serve
