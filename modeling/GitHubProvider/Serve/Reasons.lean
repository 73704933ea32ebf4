/- Why a request is refused: every refusal, by its code. -/

import GitHubProvider.Serve.Calls
import GitHubProvider.Serve.Endings

set_option autoImplicit false
set_option relaxedAutoImplicit false

namespace GitHubProvider.Serve

open Api (FailsWith Tree hostCodes listing)
open Http (Answer)
open Json (SerdeJson Value)
open Locator (GitHubLocator)

/-- The codes for what is wrong with a request itself. -/
def callerCodes : List ProviderCode := [.protocolUnsupported, .requestInvalid, .locatorInvalid]

theorem callerCodes_disjoint {code : ProviderCode} (h : code ∈ callerCodes) :
    code ∉ hostCodes := by
  revert h
  cases code <;> decide

section

variable [SerdeJson]

/-- The path that a request for a file looks up: a read's own, a materialize's locator's. -/
def LooksUp (document : Value) (kind : String) (locator : GitHubLocator) (path : String) : Prop :=
  kind = "read" ∧ document.strAt "path" = some path ∨
    kind = "materialize" ∧ locator.path = path ∧ path ≠ ""

inductive Explains (turn : SessionTurn) : ProviderCode → Prop
  | request {code : ProviderCode} : code ∈ callerCodes → turn.exchanges = [] →
      turn.after = turn.before → Explains turn code
  | host {code : ProviderCode} {last : Http.Get × Answer} : code ∈ hostCodes →
      last ∈ turn.exchanges.getLast? →
      FailsWith code (verdict turn.before turn.input last) → Explains turn code
  | missing {document : Value} {kind snapshot path : String} {locator : GitHubLocator}
      {tree : Tree} :
      admission turn.before.handshaken turn.input.line = .ok (document, some kind) →
      turn.before.snapshot document = some (snapshot, locator) →
      LooksUp document kind locator path →
      Supplies turn.before turn.input.credential turn.exchanges snapshot locator tree →
      (∀ entry ∈ tree.entries, entry.path ≠ path) → Explains turn .sourceUnavailable

theorem verdict_code {session : Session} {request : Request} {e : Http.Get × Answer}
    {code : ProviderCode} (h : FailsWith code (verdict session request e)) : code ∈ hostCodes := by
  by_cases unavailable : code = .sourceUnavailable
  · simp [unavailable, hostCodes]
  · obtain ⟨response, -, ⟨error, judged, rfl⟩ | ⟨rfl, -⟩⟩ :=
      (verdict_failsWith_iff unavailable).mp h
    · exact Api.judge_code judged
    · simp [hostCodes]

private theorem treeCase_supplies {session after : Session} {locator : GitHubLocator}
    {snapshot : String} {credential : Option String} {exchanges : Exchanges} {tree : Tree}
    (h : session.TreeCase locator snapshot credential exchanges (.ok tree) after) :
    Supplies session credential exchanges snapshot locator tree := by
  cases h with
  | held held => exact .inl held
  | listed _ listed => exact .inr ⟨_, List.mem_cons_self, listed⟩

omit [SerdeJson] in
private theorem ne_of_find_none {tree : Tree} {path : String}
    (missing : (tree.entries.find? fun entry => entry.path = path) = none) :
    ∀ entry ∈ tree.entries, entry.path ≠ path := by
  intro entry hentry same
  have differs := List.find?_eq_none.mp missing entry hentry
  simp [same] at differs

variable [Sha256] {turn : SessionTurn} {code : ProviderCode} {message : String}

private theorem explained_of_failure (serde : Faithful) (h : Session.serving.Takes turn)
    (refused : turn.output = refuse code message)
    (bad : ¬∀ e ∈ turn.exchanges, verdict turn.before turn.input e = .ok ()) :
    Explains turn code := by
  cases takes_ending h with
  | closed silent =>
      rw [silent] at bad
      exact absurd (by simp) bad
  | served good | declined good => exact absurd good bad
  | @failed earlier last error split _ failed ends =>
      have same := (serde.replyWith_inj.mp (ends.symm.trans refused)).1
      obtain ⟨rfl, -⟩ := Reply.error.inj same
      have fails : FailsWith error.code (verdict turn.before turn.input last) :=
        ⟨error, failed, rfl⟩
      refine .host (verdict_code fails) ?_ fails
      rw [split, List.getLast?_append, List.getLast?_singleton]
      rfl

private theorem takes_explained (serde : Faithful) (h : Session.serving.Takes turn)
    (refused : turn.output = refuse code message) : Explains turn code := by
  by_cases good : ∀ e ∈ turn.exchanges, verdict turn.before turn.input e = .ok ()
  swap
  · exact explained_of_failure serde h refused good
  have cases := takes_cases h
  obtain ⟨before, request, output, exchanges, after⟩ := turn
  dsimp only at refused good cases
  subst refused
  -- the reply that a case ends in is the refusal, so its code is the code
  have coded {found : ProviderCode} {text : String}
      (same : refuse code message = refuse found text) : code = found := by
    obtain ⟨codes, -⟩ := Reply.error.inj (serde.replyWith_inj.mp same).1
    exact codes
  have other {answer : Reply} {content : Bytes} (serves : answer.serves = true) :
      refuse code message ≠ replyWith answer content := by
    intro same
    obtain ⟨rfl, -⟩ := serde.replyWith_inj.mp same
    cases serves
  generalize ends : refuse code message = outcome at cases
  cases cases with
  | refused refused =>
      rcases admission_error_code refused with rfl | ⟨found, text, rfl, own⟩
      · cases ends
      · refine .request ?_ rfl rfl
        rw [coded ends]
        simp only [List.mem_cons, List.not_mem_nil, or_false] at own
        rcases own with rfl | rfl <;> simp [callerCodes]
  | handshake => exact absurd ends (other rfl)
  | resolve admitted cases =>
      cases cases with
      | unnamed | secret | unread => exact .request (by simp [coded ends, callerCodes]) rfl rfl
      | failed _ _ _ failed =>
          have fine := good _ List.mem_cons_self
          rw [verdict_commit admitted, failed] at fine
          cases fine
      | resolved => exact absurd ends (other rfl)
  | enumerate admitted cases =>
      cases cases with
      | notResolved => exact .request (by simp [coded ends, callerCodes]) rfl rfl
      | failed _ tree =>
          exact absurd tree (treeCase_unfailed admitted (by simp [snapshotKinds]) good)
      | listed => exact absurd ends (other rfl)
  | read admitted cases =>
      have hkind : "read" ∈ snapshotKinds := by simp [snapshotKinds]
      cases cases with
      | notResolved | unnamed => exact .request (by simp [coded ends, callerCodes]) rfl rfl
      | failed _ _ tree => exact absurd tree (treeCase_unfailed admitted hkind good)
      | absent held named tree missing =>
          rw [coded ends]
          exact .missing admitted held (.inl ⟨rfl, named⟩) (treeCase_supplies tree)
            (ne_of_find_none missing)
      | refused _ _ _ _ judged =>
          have fine := good _ (List.mem_append_right _ List.mem_cons_self)
          rw [verdict_blob admitted hkind, judged] at fine
          cases fine
      | answered => exact absurd ends (other rfl)
  | materialize admitted cases =>
      have hkind : "materialize" ∈ snapshotKinds := by simp [snapshotKinds]
      cases cases with
      | notResolved | root => exact .request (by simp [coded ends, callerCodes]) rfl rfl
      | failed _ _ failed =>
          have fine := good _ List.mem_cons_self
          rw [verdict_tree admitted hkind, failed] at fine
          cases fine
      | @absent snapshot locator answer tree held file listed missing =>
          have named : locator.path ≠ "" := by
            simpa [GitHubLocator.isRoot] using file
          rw [coded ends]
          exact .missing admitted held (.inr ⟨rfl, rfl, named⟩)
            (.inr ⟨answer, List.mem_cons_self, listed⟩) (ne_of_find_none missing)
      | refused _ _ _ _ judged =>
          have fine := good _ (List.mem_cons_of_mem _ List.mem_cons_self)
          rw [verdict_blob admitted hkind, judged] at fine
          cases fine
      | answered => exact absurd ends (other rfl)
  | undefined | unnamed => exact .request (by simp [coded ends, callerCodes]) rfl rfl

/-- Every refusal, in whatever state the session is and whatever the host answered, has one
of the reasons. With a code for what is wrong with a request nothing was asked, and the
session is as it was. -/
theorem refusal_explained (serde : Faithful) (h : Session.serving.Takes turn)
    (refused : turn.output = refuse code message) :
    Explains turn code ∧
      (code ∈ callerCodes → turn.exchanges = [] ∧ turn.after = turn.before) := by
  have explained := takes_explained serde h refused
  refine ⟨explained, fun own => ?_⟩
  cases explained with
  | request _ silent unchanged => exact ⟨silent, unchanged⟩
  | host found => exact absurd found (callerCodes_disjoint own)
  | missing => simp [callerCodes] at own

end

section

attribute [local instance] Json.compact sha2

def misreading : SessionTurn :=
  ⟨enumerating.after, (Call.read "c" "b").request none,
    refuse .sourceUnavailable "that snapshot contains no such path", [], enumerating.after⟩

private theorem takes_misreading : Session.serving.Takes misreading := by
  have cases : enumerating.after.ReadCase (Call.read "c" "b").document none []
      (refuse .sourceUnavailable "that snapshot contains no such path") enumerating.after :=
    @Session.ReadCase.absent _ _ _ _ "c" "b" parent [] ⟨[file]⟩ enumerating.after
      (Session.snapshot_eq_some_iff.mpr ⟨rfl, rfl⟩) rfl (.held rfl) (by decide)
  exact Session.handle_yields_iff.mpr
    (.read ((Call.read "c" "b").admission_line (.inr rfl)) cases)

theorem refusal_explained_misreading : Explains misreading .sourceUnavailable ∧
    (.sourceUnavailable ∈ callerCodes →
      misreading.exchanges = [] ∧ misreading.after = misreading.before) :=
  refusal_explained faithful_compact takes_misreading rfl

end

end GitHubProvider.Serve
