/- The request a resolve sends, and the texts whose reference it asks for. -/

import GitHubProvider.Api
import GitHubProvider.Json.Compact
import GitHubProvider.Locator.Grammar
import GitHubProvider.Text.Url

set_option autoImplicit false
set_option relaxedAutoImplicit false

namespace GitHubProvider.Api

open Json (SerdeJson)
open Locator (GitHubLocator scheme browserPrefix)
open Locator.GitHubLocator (WellFormed browserSegments segment)
open Text (Url isWhitespace mem_map_toLower_iff mem_of_mem_splitOn mem_of_mem_upTo separated_inj
  separator_not_mem_upTo splitOnce splitOnce_append toAsciiLowercase trim)

/-- Resolving the locator can ask for the URL, as a client reads it. -/
def Requests [SerdeJson] (locator : GitHubLocator) (url : Url) : Prop :=
  ∃ credential exchanges result, (resolveCommit locator credential).Yields exchanges result ∧
    ∃ e ∈ exchanges, url = Url.read e.1.url.toList

def commitPath (locator : GitHubLocator) : String :=
  "/repos/" ++ locator.owner ++ "/" ++ locator.repository ++ "/commits/" ++ locator.reference

/-- What is requested is the commit of the reference, and nothing is cut off or moved. -/
def SentAsNamed [SerdeJson] (locator : GitHubLocator) : Prop :=
  ∀ url, Requests locator url ↔
    url = ⟨"https".toList, "api.github.com".toList, (commitPath locator).toList, none, none⟩

/-- Both locators are requested as named, so that one request is never sent for two of them
that name different owners, repositories or references. -/
structure ResolvesWhatIsNamed [SerdeJson] (locator locator' : GitHubLocator) : Prop where
  first : SentAsNamed locator
  second : SentAsNamed locator'
  distinct {url url' : Url} : Requests locator url → Requests locator' url' →
    url.authority = url'.authority → url.target = url'.target →
    locator.owner = locator'.owner ∧ locator.repository = locator'.repository ∧
      locator.reference = locator'.reference

/-- The text is a browser URL, or a canonical text of which the owner, the repository and
the reference hold no `#` and the reference holds no `?`. -/
def NamesPlainly (text : String) : Prop :=
  ∀ rest ∈ (trim isWhitespace text.toList).dropPrefix? scheme.toList,
    ∀ sides ∈ splitOnce '?' rest,
      '#' ∉ segment sides.1 0 ∧ '#' ∉ segment sides.1 1 ∧ '#' ∉ sides.2 ∧ '?' ∉ sides.2

instance : DecidablePred NamesPlainly := fun text =>
  inferInstanceAs (Decidable (∀ rest ∈ (trim isWhitespace text.toList).dropPrefix? _, _))

section

variable [SerdeJson] {locator locator' : GitHubLocator}

theorem requests_iff {url : Url} :
    Requests locator url ↔ url = Url.read (commitUrl locator).toList := by
  constructor
  · intro h
    obtain ⟨credential, exchanges, result, yields, e, he, rfl⟩ := h
    obtain ⟨answer, rfl, -⟩ := resolveCommit_yields.mp yields
    simp only [List.mem_singleton.mp he, commitGet]
  · intro h
    let answer : Http.Answer := .error ""
    have yields : (resolveCommit locator none).Yields [(commitGet locator none, answer)]
        (namedCommit answer false) := resolveCommit_yields.mpr ⟨answer, rfl, rfl⟩
    refine ⟨none, _, _, yields, (commitGet locator none, answer), by simp, ?_⟩
    simpa [commitGet] using h

theorem sentAsNamed_iff (h : WellFormed locator) :
    SentAsNamed locator ↔ '#' ∉ locator.owner.toList ∧ '#' ∉ locator.repository.toList ∧
      '#' ∉ locator.reference.toList ∧ '?' ∉ locator.reference.toList := by
  let tail := "repos/" ++ locator.owner ++ "/" ++ locator.repository ++ "/commits/" ++
    locator.reference
  have url : (commitUrl locator).toList = "https".toList ++ "://".toList ++
      "api.github.com".toList ++ '/' :: tail.toList := by
    simp only [commitUrl, apiRoot, tail, String.toList_append]
    rfl
  have path : (commitPath locator).toList = '/' :: tail.toList := by
    simp only [commitPath, tail, String.toList_append]
    rfl
  have plain : Url.read ("https".toList ++ "://".toList ++ "api.github.com".toList ++
        '/' :: tail.toList) =
      ⟨"https".toList, "api.github.com".toList, '/' :: tail.toList, none, none⟩ ↔
        '#' ∉ tail.toList ∧ '?' ∉ tail.toList :=
    Url.read_append_eq_plain_iff (by decide) (by decide) (by decide) (by decide)
  have same : SentAsNamed locator ↔ Url.read (commitUrl locator).toList =
      ⟨"https".toList, "api.github.com".toList, (commitPath locator).toList, none, none⟩ := by
    simp only [SentAsNamed, requests_iff]
    constructor
    · intro h
      exact (h _).mp rfl
    · intro h url
      rw [h]
  have ownerless := h.owner_free '?' (by simp)
  have repositoryless := h.repository_free '?' (by simp)
  rw [same, url, path, plain]
  have inTail (mark : Char) (hmark : mark ∈ ['#', '?']) : mark ∈ tail.toList ↔
      mark ∈ locator.owner.toList ∨ mark ∈ locator.repository.toList ∨
        mark ∈ locator.reference.toList := by
    have literals : mark ∉ "repos/".toList ∧ mark ∉ "/".toList ∧ mark ∉ "/commits/".toList := by
      simp only [List.mem_cons, List.not_mem_nil, or_false] at hmark
      rcases hmark with rfl | rfl <;> decide
    obtain ⟨first, slash, commits⟩ := literals
    simp only [tail, String.toList_append, List.mem_append, or_iff_right first, or_iff_left slash,
      or_iff_left commits, or_assoc]
  rw [inTail '#' (by simp), inTail '?' (by simp)]
  simp only [not_or, ownerless, repositoryless, not_false_eq_true, true_and, and_assoc]

theorem requests_distinct {url url' : Url} (h : WellFormed locator) (h' : WellFormed locator')
    (named : SentAsNamed locator) (named' : SentAsNamed locator')
    (requested : Requests locator url) (requested' : Requests locator' url')
    (targets : url.target = url'.target) :
    locator.owner = locator'.owner ∧ locator.repository = locator'.repository ∧
      locator.reference = locator'.reference := by
  rw [(named url).mp requested, (named' url').mp requested'] at targets
  have shape (l : GitHubLocator) : (commitPath l).toList = "/repos/".toList ++
      (l.owner.toList ++ '/' :: (l.repository.toList ++
        '/' :: ("commits/".toList ++ l.reference.toList))) := by
    simp only [commitPath, String.toList_append, List.append_assoc]
    rfl
  simp only [Url.target, Option.elim_none, List.append_nil, shape,
    List.append_cancel_left_eq] at targets
  have owners : '/' ∉ locator.owner.toList ∧ '/' ∉ locator'.owner.toList :=
    ⟨h.owner_free '/' (by simp), h'.owner_free '/' (by simp)⟩
  have repositories : '/' ∉ locator.repository.toList ∧ '/' ∉ locator'.repository.toList :=
    ⟨h.repository_free '/' (by simp), h'.repository_free '/' (by simp)⟩
  obtain ⟨sameOwner, rest⟩ := (separated_inj owners.1 owners.2).mp targets
  obtain ⟨sameRepository, references⟩ := (separated_inj repositories.1 repositories.2).mp rest
  exact ⟨String.toList_inj.mp sameOwner, String.toList_inj.mp sameRepository,
    String.toList_inj.mp (List.append_cancel_left references)⟩

omit [SerdeJson] in
theorem namesPlainly_iff {text : String} (h : GitHubLocator.parse text = .ok locator) :
    NamesPlainly text ↔ '#' ∉ locator.owner.toList ∧ '#' ∉ locator.repository.toList ∧
      '#' ∉ locator.reference.toList ∧ '?' ∉ locator.reference.toList := by
  have lowered (part : List Char) :
      '#' ∈ (toAsciiLowercase (.ofList part)).toList ↔ '#' ∈ part := by
    rw [toAsciiLowercase, String.toList_ofList, String.toList_ofList,
      mem_map_toLower_iff (by decide)]
  simp only [GitHubLocator.parse] at h
  unfold NamesPlainly
  split at h
  · rename_i rest browser
    obtain ⟨read, same, hread⟩ := List.dropPrefix?_eq_some_iff.mp browser
    obtain rfl : read = browserPrefix.toList := by simpa using hread
    have other : (trim isWhitespace text.toList).dropPrefix? scheme.toList = none := by
      rw [same]
      simp [scheme, browserPrefix, List.dropPrefix?]
    obtain ⟨owner, repository, kind, reference, path, segments, -, -, -, -, -, -, -, rfl⟩ :=
      GitHubLocator.fromBrowser_eq_ok_iff.mp h
    -- The query and the fragment were cut off before the URL was cut into segments.
    have clean : ∀ part ∈ browserSegments rest, '#' ∉ part ∧ '?' ∉ part := by
      intro part hpart
      exact ⟨fun mark => separator_not_mem_upTo '#' rest
          (mem_of_mem_upTo (mem_of_mem_splitOn hpart mark)),
        fun mark => separator_not_mem_upTo '?' _ (mem_of_mem_splitOn hpart mark)⟩
    rw [segments] at clean
    have hg := clean reference (by simp)
    simp only [other, Option.mem_def, reduceCtorEq, false_implies, implies_true, true_iff,
      GitHubLocator.ofParts, lowered, String.toList_ofList]
    exact ⟨(clean owner (by simp)).1, (clean repository (by simp)).1, hg.1, hg.2⟩
  · split at h
    · rename_i rest canonical
      obtain ⟨-, owner, repository, path, reference, rfl, fresh, -, -, -, so, sr, rfl⟩ :=
        GitHubLocator.fromCanonical_eq_ok_iff.mp h
      obtain ⟨first, second⟩ := GitHubLocator.segment_pathPart path so sr
      have literals : '#' ∉ "ref=".toList ∧ '?' ∉ "ref=".toList := by decide
      simp only [canonical, Option.mem_def, Option.some.injEq, forall_eq', splitOnce_append _ fresh,
        first, second, List.mem_append, or_iff_right literals.1, or_iff_right literals.2,
        GitHubLocator.ofParts, lowered, String.toList_ofList]
    · cases h

/-- Two accepted texts are resolved as the references they name, and told apart by what is
sent for them, exactly when both name their references plainly. -/
theorem resolves_what_is_named_iff {text text' : String}
    (h : GitHubLocator.parse text = .ok locator) (h' : GitHubLocator.parse text' = .ok locator') :
    ResolvesWhatIsNamed locator locator' ↔ NamesPlainly text ∧ NamesPlainly text' := by
  have formed := GitHubLocator.parse_wellFormed h
  have formed' := GitHubLocator.parse_wellFormed h'
  rw [namesPlainly_iff h, namesPlainly_iff h', ← sentAsNamed_iff formed, ← sentAsNamed_iff formed']
  constructor
  · intro resolves
    exact ⟨resolves.first, resolves.second⟩
  · intro named
    exact ⟨named.1, named.2, fun requested requested' _ targets =>
      requests_distinct formed formed' named.1 named.2 requested requested' targets⟩

end

section

attribute [local instance] Json.compact

theorem resolves_what_is_named_branches :
    ResolvesWhatIsNamed ⟨"o", "r", "a", "m"⟩ ⟨"o", "r", "", "n"⟩ ↔
      NamesPlainly "github://o/r/a?ref=m" ∧ NamesPlainly "https://github.com/O/R/tree/n?tab=x" :=
  resolves_what_is_named_iff (by decide) (by decide)

/-- A branch with a `#` in its name: what is sent is the request for another branch. -/
theorem named_branch_cut_off :
    GitHubLocator.parse "github://o/r/?ref=a#b" = .ok ⟨"o", "r", "", "a#b"⟩ ∧
      GitHubLocator.parse "github://o/r/?ref=a" = .ok ⟨"o", "r", "", "a"⟩ ∧
      (Url.read (commitUrl ⟨"o", "r", "", "a#b"⟩).toList).target =
        (Url.read (commitUrl ⟨"o", "r", "", "a"⟩).toList).target ∧
      ¬ResolvesWhatIsNamed ⟨"o", "r", "", "a#b"⟩ ⟨"o", "r", "", "a"⟩ := by
  have accepted : GitHubLocator.parse "github://o/r/?ref=a#b" = .ok ⟨"o", "r", "", "a#b"⟩ := by
    decide
  refine ⟨accepted, by decide, by decide, fun resolves => ?_⟩
  have formed := GitHubLocator.parse_wellFormed accepted
  have unmarked := ((sentAsNamed_iff formed).mp resolves.first).2.2.1
  exact unmarked (by decide)

end

end GitHubProvider.Api
