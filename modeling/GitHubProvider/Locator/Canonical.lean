/- What the parser accepts, what it builds, and when its canonical text is read back. -/

import GitHubProvider.Locator

set_option autoImplicit false
set_option relaxedAutoImplicit false

namespace GitHubProvider.Locator.GitHubLocator

open Text

def ofParts (owner repository path reference : List Char) : GitHubLocator where
  owner := toAsciiLowercase (.ofList owner)
  repository := toAsciiLowercase (.ofList repository)
  path := .ofList (path.rdropWhile (· == '/'))
  reference := .ofList reference

theorem build_eq_ok_iff {owner repository path reference : List Char} {l : GitHubLocator} :
    build owner repository path reference = .ok l ↔
      '@' ∉ owner ∧ '@' ∉ repository ∧ '@' ∉ reference ∧
        l = ofParts owner repository path reference := by
  simp only [build, List.any_cons, List.any_nil, Bool.or_false, Bool.or_eq_true,
    List.contains_iff_mem]
  split
  · rename_i h
    constructor
    · rintro ⟨⟩
    · intro h
      obtain ⟨howner, hrepository, hreference, -⟩ := h
      simp_all
  · rename_i h
    simp only [not_or] at h
    constructor
    · rintro ⟨⟩
      exact ⟨h.1, h.2.1, h.2.2, rfl⟩
    · intro h
      obtain ⟨-, -, -, rfl⟩ := h
      rfl

private theorem splitn_three (text : List Char) :
    ('/' ∉ text ∧ splitn '/' 3 text = [text]) ∨
      (∃ owner repository, text = owner ++ '/' :: repository ∧ '/' ∉ owner ∧ '/' ∉ repository ∧
        splitn '/' 3 text = [owner, repository]) ∨
      ∃ owner repository path, text = owner ++ '/' :: (repository ++ '/' :: path) ∧
        '/' ∉ owner ∧ '/' ∉ repository ∧ splitn '/' 3 text = [owner, repository, path] := by
  cases hfirst : splitOnce '/' text with
  | none => exact .inl ⟨splitOnce_eq_none_iff.mp hfirst, by simp [splitn, hfirst]⟩
  | some sides =>
      obtain ⟨owner, rest⟩ := sides
      obtain ⟨rfl, howner⟩ := splitOnce_eq_some_iff.mp hfirst
      cases hsecond : splitOnce '/' rest with
      | none =>
          exact .inr (.inl ⟨owner, rest, rfl, howner, splitOnce_eq_none_iff.mp hsecond,
            by simp [splitn, hfirst, hsecond]⟩)
      | some sides =>
          obtain ⟨repository, path⟩ := sides
          obtain ⟨rfl, hrepository⟩ := splitOnce_eq_some_iff.mp hsecond
          exact .inr (.inr ⟨owner, repository, path, rfl, howner, hrepository,
            by simp [splitn, hfirst, hsecond]⟩)

/-- The path part of a canonical locator: an owner and a repository, and a path
after a further slash when there is one. -/
def pathPart (owner repository : List Char) : Option (List Char) → List Char
  | none => owner ++ '/' :: repository
  | some path => owner ++ '/' :: (repository ++ '/' :: path)

private theorem splitn_pathPart {owner repository : List Char} (path : Option (List Char))
    (howner : '/' ∉ owner) (hrepository : '/' ∉ repository) :
    splitn '/' 3 (pathPart owner repository path) = owner :: repository :: path.toList := by
  cases path with
  | none =>
      simp [pathPart, splitn, splitOnce_append repository howner,
        splitOnce_eq_none_iff.mpr hrepository]
  | some path =>
      simp [pathPart, splitn, splitOnce_append _ howner, splitOnce_append path hrepository]

theorem fromCanonical_eq_ok_iff {rest : List Char} {l : GitHubLocator} :
    fromCanonical rest = .ok l ↔
      '@' ∉ rest ∧ ∃ owner repository path reference,
        rest = pathPart owner repository path ++ '?' :: ("ref=".toList ++ reference) ∧
        '?' ∉ pathPart owner repository path ∧ reference ≠ [] ∧
        owner ≠ [] ∧ repository ≠ [] ∧ '/' ∉ owner ∧ '/' ∉ repository ∧
        l = ofParts owner repository (path.getD []) reference := by
  constructor
  · intro h
    simp only [fromCanonical, List.contains_iff_mem] at h
    split at h
    · cases h
    rename_i hat
    refine ⟨hat, ?_⟩
    split at h
    · cases h
    rename_i part query hquery
    obtain ⟨rfl, hquestion⟩ := splitOnce_eq_some_iff.mp hquery
    split at h
    · cases h
    rename_i reference hreference
    obtain ⟨ref, rfl, href⟩ := List.dropPrefix?_eq_some_iff.mp hreference
    obtain rfl : ref = "ref=".toList := by simpa using href
    simp only [List.isEmpty_iff] at h
    split at h
    · cases h
    rename_i hne
    split at h
    · cases h
    rename_i howner
    split at h
    · cases h
    rename_i hrepository
    obtain ⟨-, -, -, rfl⟩ := build_eq_ok_iff.mp h
    rcases splitn_three part with ⟨-, hsplit⟩ | ⟨owner, repository, rfl, ho, hr, hsplit⟩ |
      ⟨owner, repository, path, rfl, ho, hr, hsplit⟩
    · simp [hsplit] at hrepository
    · simp only [hsplit, List.getD_cons_zero, List.getD_cons_succ, List.getD_nil]
        at howner hrepository ⊢
      exact ⟨owner, repository, none, reference, rfl, hquestion, hne, howner, hrepository, ho, hr,
        rfl⟩
    · simp only [hsplit, List.getD_cons_zero, List.getD_cons_succ] at howner hrepository ⊢
      exact ⟨owner, repository, some path, reference, rfl, hquestion, hne, howner, hrepository,
        ho, hr, rfl⟩
  · rintro ⟨hat, owner, repository, path, reference, rfl, hquestion, hne, howner, hrepository, ho,
      hr, rfl⟩
    have hbuild : build owner repository (path.getD []) reference =
        .ok (ofParts owner repository (path.getD []) reference) := by
      refine build_eq_ok_iff.mpr ⟨?_, ?_, ?_, rfl⟩ <;> intro hmem <;> apply hat <;>
        cases path <;> simp [pathPart, hmem]
    have hprefix : ("ref=".toList ++ reference).dropPrefix? "ref=".toList = some reference :=
      List.dropPrefix?_append_of_beq reference (by simp)
    have hpath : path.toList.getD 0 [] = path.getD [] := by
      cases path <;> rfl
    simp only [fromCanonical, List.contains_iff_mem, if_neg hat,
      splitOnce_append ("ref=".toList ++ reference) hquestion, hprefix, List.isEmpty_iff, hne,
      if_false, hpath, splitn_pathPart path ho hr, List.getD_cons_zero, List.getD_cons_succ,
      howner, hrepository, hbuild]

def browserSegments (rest : List Char) : List (List Char) :=
  (upTo '?' (upTo '#' rest)).splitOn '/'

theorem fromBrowser_eq_ok_iff {rest : List Char} {l : GitHubLocator} :
    fromBrowser rest = .ok l ↔
      ∃ owner repository kind reference path,
        browserSegments rest = owner :: repository :: kind :: reference :: path ∧
        owner ≠ [] ∧ repository ≠ [] ∧ reference ≠ [] ∧
        (kind = "tree".toList ∨ kind = "blob".toList) ∧
        '@' ∉ owner ∧ '@' ∉ repository ∧ '@' ∉ reference ∧
        l = ofParts owner repository (['/'].intercalate path) reference := by
  simp only [fromBrowser]
  change (if _ then _ else _) = _ ↔ _
  rw [show (upTo '?' (upTo '#' rest)).splitOn '/' = browserSegments rest from rfl]
  generalize browserSegments rest = segments
  rcases segments with _ | ⟨owner, _ | ⟨repository, _ | ⟨kind, _ | ⟨reference, path⟩⟩⟩⟩
  · simp
  · by_cases ho : owner = [] <;> simp [ho]
  · by_cases ho : owner = [] <;> by_cases hr : repository = [] <;> simp [ho, hr]
  · by_cases ho : owner = []
    · simp [ho]
    by_cases hr : repository = []
    · simp [ho, hr]
    simp only [List.getD_cons_zero, List.getD_cons_succ, List.getD_nil, List.isEmpty_iff, ho, hr,
      List.getElem?_cons_succ, List.getElem?_cons_zero, if_true, if_false]
    split <;> simp
  · simp only [List.getD_cons_zero, List.getD_cons_succ, List.isEmpty_iff, List.cons.injEq,
      List.getElem?_cons_succ, List.getElem?_cons_zero, List.drop_succ_cons, List.drop_zero]
    constructor
    · intro h
      split at h
      · cases h
      rename_i howner
      split at h
      · cases h
      rename_i hrepository
      split at h
      swap
      · cases h
      rename_i hkind
      split at h
      · cases h
      rename_i hreference
      obtain ⟨ho, hr, hg, hl⟩ := build_eq_ok_iff.mp h
      exact ⟨owner, repository, kind, reference, path, ⟨rfl, rfl, rfl, rfl, rfl⟩, howner,
        hrepository, hreference, hkind, ho, hr, hg, hl⟩
    · rintro ⟨_, _, _, _, _, ⟨rfl, rfl, rfl, rfl, rfl⟩, howner, hrepository, hreference, hkind, ho,
        hr, hg, hl⟩
      simp only [howner, hrepository, hkind, hreference, if_false, if_true]
      exact build_eq_ok_iff.mpr ⟨ho, hr, hg, hl⟩

structure WellFormed (l : GitHubLocator) : Prop where
  owner_ne : l.owner.toList ≠ []
  repository_ne : l.repository.toList ≠ []
  reference_ne : l.reference.toList ≠ []
  owner_free : ∀ c ∈ ['/', '?', '@'], c ∉ l.owner.toList
  repository_free : ∀ c ∈ ['/', '?', '@'], c ∉ l.repository.toList
  path_free : '?' ∉ l.path.toList
  reference_free : '@' ∉ l.reference.toList
  owner_lower : l.owner.toList.map Char.toLower = l.owner.toList
  repository_lower : l.repository.toList.map Char.toLower = l.repository.toList
  path_trimmed : endsIn (· == '/') l.path.toList = false

private theorem ofParts_wellFormed {owner repository path reference : List Char}
    (howner : owner ≠ []) (hrepository : repository ≠ []) (hreference : reference ≠ [])
    (ho : ∀ c ∈ ['/', '?', '@'], c ∉ owner) (hr : ∀ c ∈ ['/', '?', '@'], c ∉ repository)
    (hp : '?' ∉ path) (hg : '@' ∉ reference) :
    WellFormed (ofParts owner repository path reference) := by
  have free : ∀ part : List Char, (∀ c ∈ ['/', '?', '@'], c ∉ part) →
      ∀ c ∈ ['/', '?', '@'], c ∉ part.map Char.toLower := by
    intro part hpart c hc
    have notAlpha : c.isAlpha = false := by
      simp only [List.mem_cons, List.not_mem_nil, or_false] at hc
      rcases hc with rfl | rfl | rfl <;> decide
    rw [mem_map_toLower_iff notAlpha]
    exact hpart c hc
  refine ⟨?_, ?_, ?_, ?_, ?_, ?_, ?_, ?_, ?_, ?_⟩ <;>
    simp only [ofParts, toAsciiLowercase, String.toList_ofList]
  · simpa using howner
  · simpa using hrepository
  · exact hreference
  · exact free owner ho
  · exact free repository hr
  · exact fun h => hp ((List.rdropWhile_prefix _ _).subset h)
  · exact hg
  · exact map_toLower_idempotent owner
  · exact map_toLower_idempotent repository
  · exact rdropWhile_eq_self_iff_endsIn.mp (List.rdropWhile_idempotent _ path)

private theorem fromCanonical_wellFormed {rest : List Char} {l : GitHubLocator}
    (h : fromCanonical rest = .ok l) : WellFormed l := by
  obtain ⟨hat, owner, repository, path, reference, rfl, hquestion, hne, howner, hrepository, ho,
    hr, rfl⟩ := fromCanonical_eq_ok_iff.mp h
  have parts : '@' ∉ owner ∧ '@' ∉ repository ∧ '@' ∉ reference := by
    cases path <;> simp_all [pathPart]
  have unquestioned : '?' ∉ owner ∧ '?' ∉ repository ∧ '?' ∉ path.getD [] := by
    cases path <;> simp_all [pathPart]
  refine ofParts_wellFormed howner hrepository hne ?_ ?_ unquestioned.2.2 parts.2.2
  · simp [ho, unquestioned.1, parts.1]
  · simp [hr, unquestioned.2.1, parts.2.1]

private theorem fromBrowser_wellFormed {rest : List Char} {l : GitHubLocator}
    (h : fromBrowser rest = .ok l) : WellFormed l := by
  obtain ⟨owner, repository, kind, reference, path, hsegments, howner, hrepository, hreference, -,
    ho, hr, hg, rfl⟩ := fromBrowser_eq_ok_iff.mp h
  have unquestioned : ∀ segment ∈ browserSegments rest, '?' ∉ segment := by
    intro segment hsegment hmem
    exact separator_not_mem_upTo '?' _ (mem_of_mem_splitOn hsegment hmem)
  have unslashed : ∀ segment ∈ browserSegments rest, '/' ∉ segment :=
    fun _ hsegment => separator_not_mem_splitOn hsegment
  rw [hsegments] at unquestioned unslashed
  refine ofParts_wellFormed howner hrepository hreference ?_ ?_ ?_ hg
  · simp [ho, unquestioned owner, unslashed owner]
  · simp [hr, unquestioned repository, unslashed repository]
  · intro hmem
    cases path with
    | nil => simp [List.intercalate] at hmem
    | cons first rest =>
        rcases mem_intercalate_cons.mp hmem with hfirst | ⟨segment, hsegment, hslash | hc⟩
        · exact unquestioned first (by simp) hfirst
        · exact absurd hslash (by decide)
        · exact unquestioned segment (by simp [hsegment]) hc

theorem parse_wellFormed {text : String} {l : GitHubLocator} (h : parse text = .ok l) :
    WellFormed l := by
  simp only [parse] at h
  split at h
  · exact fromBrowser_wellFormed h
  · split at h
    · exact fromCanonical_wellFormed h
    · cases h

private def uptoReference (l : GitHubLocator) : List Char :=
  scheme.toList ++ (pathPart l.owner.toList l.repository.toList (some l.path.toList) ++
    '?' :: "ref=".toList)

private theorem toList_toString (l : GitHubLocator) :
    l.toString.toList = l.uptoReference ++ l.reference.toList := by
  simp [toString, uptoReference, pathPart]

private theorem trim_toString (l : GitHubLocator) :
    trim isWhitespace l.toString.toList =
      l.uptoReference ++ l.reference.toList.rdropWhile isWhitespace := by
  have ends : endsIn isWhitespace l.uptoReference = false := by
    simp only [uptoReference]
    rw [← List.append_assoc, ← List.singleton_append, ← List.append_assoc,
      endsIn_append (by decide)]
    decide
  rw [toList_toString]
  exact trim_append (x := 'g') (by decide) ends

private theorem canonical_parts_unique {owner repository owner' repository' : List Char}
    {path path' : Option (List Char)} {reference reference' : List Char}
    (ho : '/' ∉ owner) (hr : '/' ∉ repository) (ho' : '/' ∉ owner') (hr' : '/' ∉ repository')
    (hquestion : '?' ∉ pathPart owner repository path)
    (hquestion' : '?' ∉ pathPart owner' repository' path')
    (h : pathPart owner repository path ++ '?' :: ("ref=".toList ++ reference) =
      pathPart owner' repository' path' ++ '?' :: ("ref=".toList ++ reference')) :
    owner = owner' ∧ repository = repository' ∧ path = path' ∧ reference = reference' := by
  obtain ⟨hparts, hqueries⟩ := (separated_inj hquestion hquestion').mp h
  have pieces := splitn_pathPart path ho hr
  rw [hparts, splitn_pathPart path' ho' hr'] at pieces
  simp only [List.cons.injEq] at pieces
  obtain ⟨howners, hrepositories, hpaths⟩ := pieces
  have same : path' = path := by
    cases path <;> cases path' <;> simp_all
  exact ⟨howners.symm, hrepositories.symm, same.symm, List.append_cancel_left hqueries⟩

theorem WellFormed.toString_inj {l l' : GitHubLocator} (hl : WellFormed l) (hl' : WellFormed l') :
    l.toString = l'.toString ↔ l = l' := by
  have unquestioned {l : GitHubLocator} (hl : WellFormed l) :
      '?' ∉ pathPart l.owner.toList l.repository.toList (some l.path.toList) := by
    simp [pathPart, hl.owner_free '?' (by simp), hl.repository_free '?' (by simp), hl.path_free]
  constructor
  · intro same
    have chars := congrArg String.toList same
    simp only [toList_toString, uptoReference, List.append_assoc, List.append_cancel_left_eq,
      List.cons_append] at chars
    obtain ⟨howner, hrepository, hpath, hreference⟩ :=
      canonical_parts_unique (hl.owner_free '/' (by simp)) (hl.repository_free '/' (by simp))
        (hl'.owner_free '/' (by simp)) (hl'.repository_free '/' (by simp)) (unquestioned hl)
        (unquestioned hl') chars
    cases l
    cases l'
    simp only [mk.injEq]
    exact ⟨String.toList_inj.mp howner, String.toList_inj.mp hrepository,
      String.toList_inj.mp (Option.some.inj hpath), String.toList_inj.mp hreference⟩
  · rintro rfl
    rfl

private theorem fromCanonical_render {l l' : GitHubLocator} (hl : WellFormed l)
    (reference : List Char) (hreference : '@' ∉ reference) :
    fromCanonical (pathPart l.owner.toList l.repository.toList (some l.path.toList) ++
        '?' :: ("ref=".toList ++ reference)) = .ok l' ↔
      '@' ∉ l.path.toList ∧ reference ≠ [] ∧ l' = { l with reference := .ofList reference } := by
  have slashes : '/' ∉ l.owner.toList ∧ '/' ∉ l.repository.toList :=
    ⟨hl.owner_free '/' (by simp), hl.repository_free '/' (by simp)⟩
  have ats : '@' ∉ l.owner.toList ∧ '@' ∉ l.repository.toList :=
    ⟨hl.owner_free '@' (by simp), hl.repository_free '@' (by simp)⟩
  have unquestioned : '?' ∉ pathPart l.owner.toList l.repository.toList (some l.path.toList) := by
    simp [pathPart, hl.owner_free '?' (by simp), hl.repository_free '?' (by simp), hl.path_free]
  have same : ofParts l.owner.toList l.repository.toList l.path.toList reference =
      { l with reference := .ofList reference } := by
    simp [ofParts, toAsciiLowercase, hl.owner_lower, hl.repository_lower,
      rdropWhile_eq_self_iff_endsIn.mpr hl.path_trimmed]
  rw [fromCanonical_eq_ok_iff]
  constructor
  · intro h
    obtain ⟨hat, owner, repository, path, reference', hrest, hquestion, hne, -, -, ho, hr, rfl⟩ := h
    obtain ⟨rfl, rfl, rfl, rfl⟩ :=
      canonical_parts_unique slashes.1 slashes.2 ho hr unquestioned hquestion hrest
    refine ⟨fun h => hat ?_, hne, same⟩
    simp [pathPart, h]
  · intro h
    obtain ⟨hat, hne, rfl⟩ := h
    refine ⟨?_, l.owner.toList, l.repository.toList, some l.path.toList, reference, rfl,
      unquestioned, hne, hl.owner_ne, hl.repository_ne, slashes.1, slashes.2, same.symm⟩
    simp [pathPart, ats.1, ats.2, hat, hreference]

/-- How a canonical text is read: its path is searched for an `@`, which the browser
form does not do, and white space at its end is not taken for a part of it. -/
theorem parse_toString_eq_ok_iff {l l' : GitHubLocator} (hl : WellFormed l) :
    parse l.toString = .ok l' ↔
      '@' ∉ l.path.toList ∧ l.reference.toList.rdropWhile isWhitespace ≠ [] ∧
        l' = { l with reference := .ofList (l.reference.toList.rdropWhile isWhitespace) } := by
  rw [← fromCanonical_render hl _ fun h =>
    hl.reference_free ((List.rdropWhile_prefix _ _).subset h)]
  have browser (rest : List Char) :
      (scheme.toList ++ rest).dropPrefix? browserPrefix.toList = none := by
    simp [scheme, browserPrefix, List.dropPrefix?]
  have canonical (rest : List Char) :
      (scheme.toList ++ rest).dropPrefix? scheme.toList = some rest :=
    List.dropPrefix?_append_of_beq rest (by simp)
  have read : trim isWhitespace l.toString.toList = scheme.toList ++
      (pathPart l.owner.toList l.repository.toList (some l.path.toList) ++
        '?' :: ("ref=".toList ++ l.reference.toList.rdropWhile isWhitespace)) := by
    simp [trim_toString, uptoReference]
  simp only [parse, read, browser, canonical]

theorem parse_toString_iff {l : GitHubLocator} (hl : WellFormed l) :
    parse l.toString = .ok l ↔
      '@' ∉ l.path.toList ∧ endsIn isWhitespace l.reference.toList = false := by
  rw [parse_toString_eq_ok_iff hl, ← rdropWhile_eq_self_iff_endsIn]
  constructor
  · intro h
    obtain ⟨hat, -, hl'⟩ := h
    refine ⟨hat, ?_⟩
    have references := congrArg (fun l => l.reference.toList) hl'
    simpa using references.symm
  · intro h
    obtain ⟨hat, hreference⟩ := h
    rw [hreference]
    exact ⟨hat, hl.reference_ne, by simp⟩

/-- What a text must be for its locator to be read back from the canonical text: a
browser URL of which the segment of the reference does not end in white space, and
of which no segment after it holds an `@`, or any text that is not a browser URL. -/
def SurvivesRendering (text : String) : Prop :=
  ∀ rest ∈ (trim isWhitespace text.toList).dropPrefix? browserPrefix.toList,
    endsIn isWhitespace ((browserSegments rest).getD 3 []) = false ∧
      ∀ segment ∈ (browserSegments rest).drop 4, '@' ∉ segment

instance : DecidablePred SurvivesRendering := fun text =>
  inferInstanceAs (Decidable (∀ rest ∈ (trim isWhitespace text.toList).dropPrefix? _, _))

theorem parse_toString_iff_survivesRendering {text : String} {l : GitHubLocator}
    (h : parse text = .ok l) : parse l.toString = .ok l ↔ SurvivesRendering text := by
  have kept (path : List Char) : '@' ∈ path.rdropWhile (· == '/') ↔ '@' ∈ path :=
    mem_rdropWhile_iff (by decide)
  rw [parse_toString_iff (parse_wellFormed h)]
  simp only [parse] at h
  unfold SurvivesRendering
  split at h
  · rename_i rest hrest
    obtain ⟨owner, repository, kind, reference, path, hsegments, -, -, -, -, -, -, -, rfl⟩ :=
      fromBrowser_eq_ok_iff.mp h
    simp only [hrest, Option.mem_def, Option.some.injEq, forall_eq', hsegments,
      List.getD_cons_succ, List.getD_cons_zero, List.drop_succ_cons, List.drop_zero, ofParts,
      String.toList_ofList, kept]
    rw [and_comm]
    refine and_congr_right fun _ => ?_
    cases path with
    | nil => simp [List.intercalate]
    | cons first others =>
        rw [mem_intercalate_cons]
        simp
  · rename_i hrest
    simp only [hrest, Option.mem_def, reduceCtorEq, false_implies, implies_true, iff_true]
    split at h
    · rename_i rest hscheme
      obtain ⟨hat, owner, repository, path, reference, rfl, -, hne, -, -, -, -, rfl⟩ :=
        fromCanonical_eq_ok_iff.mp h
      obtain ⟨sch, htext, hsch⟩ := List.dropPrefix?_eq_some_iff.mp hscheme
      simp only [ofParts, String.toList_ofList, kept]
      constructor
      · cases path <;> simp_all [pathPart]
      · have trimmed := endsIn_trim isWhitespace text.toList
        rw [htext, ← List.cons_append, ← List.append_assoc, ← List.append_assoc,
          endsIn_append hne] at trimmed
        exact trimmed
    · cases h

end GitHubProvider.Locator.GitHubLocator
