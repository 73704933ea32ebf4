/- What a session holds, in terms of the requests it has answered. -/

import GitHubProvider.Serve.Effects

/-!
The session is a record of its past. Its two maps and its flag are characterised
by the turns that led to it, and this one invariant is what every statement about
whole runs is proved from.
-/

set_option autoImplicit false
set_option relaxedAutoImplicit false

namespace GitHubProvider.Serve

open Api (Tree)
open Http (Answer)
open Json (SerdeJson)
open Locator (GitHubLocator)

variable [SerdeJson]

def HandshakenIn (past : List SessionTurn) : Prop :=
  ∃ turn ∈ past, turn.output = reply .handshake ∧
    ∃ document, admission turn.before.handshaken turn.input.line = .ok (document, some "handshake")

def ResolvedIn (past : List SessionTurn) (commit : String) (locator : GitHubLocator) : Prop :=
  ∃ turn ∈ past, turn.output = reply (.resolve commit locator.toString) ∧
    ∃ answer, Resolves turn.before turn.input turn.exchanges commit locator answer

/-- An enumerate or a read of the snapshot obtained the listing, from the locator. -/
def ListedIn (past : List SessionTurn) (snapshot : String) (locator : GitHubLocator)
    (tree : Tree) : Prop :=
  ∃ turn ∈ past, ∃ answer,
    Lists turn.before turn.input turn.exchanges snapshot locator tree answer

section

variable {past : List SessionTurn} {turn : SessionTurn} {snapshot : String}
  {locator : GitHubLocator} {tree : Tree}

theorem handshakenIn_snoc : HandshakenIn (past ++ [turn]) ↔ HandshakenIn past ∨
    (turn.output = reply .handshake ∧ ∃ document,
      admission turn.before.handshaken turn.input.line = .ok (document, some "handshake")) := by
  simp only [HandshakenIn, List.mem_append, List.mem_singleton, or_and_right, exists_or,
    exists_eq_left]

theorem resolvedIn_snoc : ResolvedIn (past ++ [turn]) snapshot locator ↔
    ResolvedIn past snapshot locator ∨ (turn.output = reply (.resolve snapshot locator.toString) ∧
      ∃ answer, Resolves turn.before turn.input turn.exchanges snapshot locator answer) := by
  simp only [ResolvedIn, List.mem_append, List.mem_singleton, or_and_right, exists_or,
    exists_eq_left]

theorem listedIn_snoc : ListedIn (past ++ [turn]) snapshot locator tree ↔
    ListedIn past snapshot locator tree ∨
      ∃ answer, Lists turn.before turn.input turn.exchanges snapshot locator tree answer := by
  simp only [ListedIn, List.mem_append, List.mem_singleton, or_and_right, exists_or,
    exists_eq_left]

end

/-- The session is what these turns make of a session that has agreed nothing. -/
structure Recorded (past : List SessionTurn) (session : Session) : Prop where
  handshaken : session.handshaken = true ↔ HandshakenIn past
  resolved (snapshot : String) :
    session.resolved.lookup snapshot ≠ none ↔ ∃ locator, ResolvedIn past snapshot locator
  held {snapshot : String} {locator : GitHubLocator} :
    session.resolved.lookup snapshot = some locator → ResolvedIn past snapshot locator
  trees (snapshot : String) (tree : Tree) :
    session.trees.lookup snapshot = some tree ↔ ∃ locator, ListedIn past snapshot locator tree
  keys {snapshot : String} :
    session.trees.lookup snapshot ≠ none → session.resolved.lookup snapshot ≠ none

variable [Sha256]

variable {past : List SessionTurn} {turn : SessionTurn}

private theorem step_handshaken (h : Recorded past turn.before)
    (taken : Session.serving.Takes turn) :
    turn.after.handshaken = true ↔ HandshakenIn (past ++ [turn]) := by
  rw [handshakenIn_snoc, ← h.handshaken]
  have effect := takes_effect taken
  constructor
  · intro shaken
    generalize turn.after = after at effect shaken
    cases effect with
    | unchanged | resolved | listed => exact .inl shaken
    | handshaken admitted _ output => exact .inr ⟨output, _, admitted⟩
  · intro h
    rcases h with shaken | ⟨-, document, admitted⟩
    · generalize turn.after = after at effect
      cases effect with
      | unchanged | resolved | listed => exact shaken
      | handshaken => rfl
    · rw [(takes_handshake taken admitted).1]

private theorem step_trees (h : Recorded past turn.before) (taken : Session.serving.Takes turn)
    (snapshot : String) (tree : Tree) :
    turn.after.trees.lookup snapshot = some tree ↔
      ∃ locator, ListedIn (past ++ [turn]) snapshot locator tree := by
  simp only [listedIn_snoc, exists_or, ← h.trees]
  constructor
  · intro held
    have effect := takes_effect taken
    generalize turn.after = after at effect held
    cases effect with
    | unchanged | handshaken | resolved => exact .inl held
    | @listed fresh locator _ answer lists =>
        by_cases same : snapshot = fresh
        · subst same
          simp only [Session.keep_trees, AList.lookup_insert, Option.some.injEq] at held
          subst held
          exact .inr ⟨locator, answer, lists⟩
        · rw [Session.keep_trees, AList.lookup_insert_ne same] at held
          exact .inl held
  · intro h
    rcases h with held | ⟨locator, answer, lists⟩
    · exact takes_keeps_trees taken held
    · simp [takes_lists taken lists]

private theorem step_held (h : Recorded past turn.before) (taken : Session.serving.Takes turn)
    {snapshot : String} {locator : GitHubLocator}
    (held : turn.after.resolved.lookup snapshot = some locator) :
    ResolvedIn (past ++ [turn]) snapshot locator := by
  rw [resolvedIn_snoc]
  have effect := takes_effect taken
  generalize turn.after = after at effect held
  cases effect with
  | unchanged | handshaken | listed => exact .inl (h.held held)
  | @resolved commit _ answer resolves output =>
      by_cases same : snapshot = commit
      · subst same
        simp only [Session.hold_resolved, AList.lookup_insert, Option.some.injEq] at held
        subst held
        exact .inr ⟨output, answer, resolves⟩
      · rw [Session.hold_resolved, AList.lookup_insert_ne same] at held
        exact .inl (h.held held)

private theorem step_resolved (h : Recorded past turn.before)
    (taken : Session.serving.Takes turn) (snapshot : String) :
    turn.after.resolved.lookup snapshot ≠ none ↔
      ∃ locator, ResolvedIn (past ++ [turn]) snapshot locator := by
  constructor
  · intro held
    obtain ⟨locator, held⟩ := Option.ne_none_iff_exists'.mp held
    exact ⟨locator, step_held h taken held⟩
  · simp only [resolvedIn_snoc, exists_or, ← h.resolved]
    intro h
    rcases h with held | ⟨locator, -, answer, resolves⟩
    · exact takes_keeps_resolved taken held
    · simp [(takes_resolves taken resolves).1]

private theorem step_keys (h : Recorded past turn.before) (taken : Session.serving.Takes turn)
    {snapshot : String} (kept : turn.after.trees.lookup snapshot ≠ none) :
    turn.after.resolved.lookup snapshot ≠ none := by
  apply takes_keeps_resolved taken
  have effect := takes_effect taken
  generalize turn.after = after at effect kept
  cases effect with
  | unchanged | handshaken | resolved => exact h.keys kept
  | @listed fresh _ _ _ lists =>
      by_cases same : snapshot = fresh
      · subst same
        obtain ⟨_, _, -, -, held⟩ := lists.admitted
        simp [(Session.snapshot_eq_some_iff.mp held).2]
      · rw [Session.keep_trees, AList.lookup_insert_ne same] at kept
        exact h.keys kept

theorem chain_recorded {final : Session} (h : Session.serving.Chain .new past final) :
    Recorded past final := by
  refine h.invariant Recorded ?_ fun past turn recorded taken => ?_
  · constructor <;> simp [Session.new, HandshakenIn, ResolvedIn, ListedIn]
  · exact ⟨step_handshaken recorded taken, step_resolved recorded taken,
      step_held recorded taken, step_trees recorded taken, step_keys recorded taken⟩

theorem chain_handshaken {final : Session} (h : Session.serving.Chain .new past final)
    {snapshot : String} {locator : GitHubLocator}
    (held : final.resolved.lookup snapshot = some locator) : final.handshaken = true := by
  let Ready (_ : List SessionTurn) (session : Session) : Prop :=
    ∀ snapshot locator, session.resolved.lookup snapshot = some locator →
      session.handshaken = true
  have ready : Ready past final := by
    refine h.invariant Ready (by simp [Ready, Session.new]) fun past turn ready taken => ?_
    intro snapshot locator held
    have effect := takes_effect taken
    generalize turn.after = after at effect held ⊢
    cases effect with
    | unchanged | listed => exact ready snapshot locator held
    | handshaken => rfl
    | resolved resolves =>
        obtain ⟨document, text, admitted, -⟩ := resolves.admitted
        exact handshaken_of_admission admitted (by decide)
  exact ready snapshot locator held

omit [Sha256] in
private theorem lists_unique {snapshot : String} {locator locator' : GitHubLocator}
    {tree tree' : Tree} {answer answer' : Answer}
    (h : Lists turn.before turn.input turn.exchanges snapshot locator tree answer)
    (h' : Lists turn.before turn.input turn.exchanges snapshot locator' tree' answer') :
    locator = locator' ∧ tree = tree' := by
  obtain ⟨document, kind, admitted, -, named⟩ := h.admitted
  obtain ⟨document', kind', admitted', -, named'⟩ := h'.admitted
  obtain ⟨rfl, -⟩ := Prod.mk.inj (Except.ok.inj (admitted.symm.trans admitted'))
  obtain ⟨-, rfl⟩ := Session.snapshot_unique named named'
  obtain ⟨rest, asked⟩ := h.asked
  obtain ⟨rest', asked'⟩ := h'.asked
  obtain ⟨heads, -⟩ := List.cons.inj (asked.symm.trans asked')
  obtain ⟨-, rfl⟩ := Prod.mk.inj heads
  exact ⟨rfl, Except.ok.inj (h.listed.symm.trans h'.listed)⟩

theorem chain_listedIn_unique {final : Session} (h : Session.serving.Chain .new past final)
    {snapshot : String} {locator locator' : GitHubLocator} {tree tree' : Tree}
    (listed : ListedIn past snapshot locator tree)
    (listed' : ListedIn past snapshot locator' tree') : locator = locator' ∧ tree = tree' := by
  induction past using List.reverseRecOn generalizing final with
  | nil => simp [ListedIn] at listed
  | append_singleton past turn ih =>
      obtain ⟨before, taken, -⟩ := h.cut
      have recorded := chain_recorded before
      rcases listedIn_snoc.mp listed with old | ⟨answer, lists⟩ <;>
        rcases listedIn_snoc.mp listed' with old' | ⟨answer', lists'⟩
      · exact ih before old old'
      · have kept := (recorded.trees snapshot tree).mpr ⟨locator, old⟩
        simp [lists'.absent] at kept
      · have kept := (recorded.trees snapshot tree').mpr ⟨locator', old'⟩
        simp [lists.absent] at kept
      · exact lists_unique lists lists'

end GitHubProvider.Serve
