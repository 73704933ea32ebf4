/- One source, one locator: every spelling of a source, and what tells two apart. -/

import GitHubProvider.Locator.Grammar

set_option autoImplicit false
set_option relaxedAutoImplicit false

namespace GitHubProvider.Locator

open Text

/-- Two accepted texts are rendered as one canonical text only when they are read as one
locator. -/
theorem canonical_text_identifies {text text' : String} {l l' : GitHubLocator}
    (h : GitHubLocator.parse text = .ok l) (h' : GitHubLocator.parse text' = .ok l') :
    l.toString = l'.toString ↔ l = l' :=
  (GitHubLocator.parse_wellFormed h).toString_inj (GitHubLocator.parse_wellFormed h')

theorem canonical_text_identifies_nested :
    GitHubLocator.toString ⟨"o", "r", "a/ref=b", "c?ref=d/e"⟩ =
        GitHubLocator.toString ⟨"o", "r", "a", "b?ref=c?ref=d/e"⟩ ↔
      (⟨"o", "r", "a/ref=b", "c?ref=d/e"⟩ : GitHubLocator) =
        ⟨"o", "r", "a", "b?ref=c?ref=d/e"⟩ := by
  have nested : GitHubLocator.parse "github://O/R/a/ref=b/?ref=c?ref=d/e" =
      .ok ⟨"o", "r", "a/ref=b", "c?ref=d/e"⟩ := by decide
  have plain : GitHubLocator.parse "github://o/r/a?ref=b?ref=c?ref=d/e" =
      .ok ⟨"o", "r", "a", "b?ref=c?ref=d/e"⟩ := by decide
  exact canonical_text_identifies nested plain

/-- The parts that name a source, whatever its spelling. -/
structure Source where
  owner : List Char
  repository : List Char
  path : List Char
  reference : List Char
  owner_ne : owner ≠ []
  repository_ne : repository ≠ []
  reference_ne : reference ≠ []
  owner_free : ∀ c ∈ ['/', '?', '#', '@'], c ∉ owner
  repository_free : ∀ c ∈ ['/', '?', '#', '@'], c ∉ repository
  reference_free : ∀ c ∈ ['/', '?', '#', '@'], c ∉ reference
  path_free : ∀ c ∈ ['?', '#', '@'], c ∉ path
  reference_ends : endsIn isWhitespace reference = false
  path_ends : endsIn isWhitespace path = false

/-- The same letters, in ASCII case or the other. -/
def Recased (part part' : List Char) : Prop := part'.map Char.toLower = part.map Char.toLower

/-- What may follow a browser URL: nothing, or a query or a fragment. -/
def Trailer (suffix : List Char) : Prop := ∀ c ∈ suffix.head?, c = '?' ∨ c = '#'

namespace Source

inductive Spelling (source : Source) : List Char → Prop
  | canonical {owner repository : List Char} (k : Nat) :
      Recased source.owner owner → Recased source.repository repository →
      Spelling source (scheme.toList ++
        ['/'].intercalate [owner, repository, source.path ++ List.replicate k '/'] ++
        "?ref=".toList ++ source.reference)
  | canonicalRoot {owner repository : List Char} : source.path = [] →
      Recased source.owner owner → Recased source.repository repository →
      Spelling source (scheme.toList ++ ['/'].intercalate [owner, repository] ++
        "?ref=".toList ++ source.reference)
  | browser {owner repository kind suffix : List Char} (k : Nat) :
      Recased source.owner owner → Recased source.repository repository →
      kind ∈ ["tree".toList, "blob".toList] → Trailer suffix →
      Spelling source (browserPrefix.toList ++
        ['/'].intercalate [owner, repository, kind, source.reference,
          source.path ++ List.replicate k '/'] ++ suffix)
  | browserRoot {owner repository kind suffix : List Char} : source.path = [] →
      Recased source.owner owner → Recased source.repository repository →
      kind ∈ ["tree".toList, "blob".toList] → Trailer suffix →
      Spelling source (browserPrefix.toList ++
        ['/'].intercalate [owner, repository, kind, source.reference] ++ suffix)

/-- The text spells the source, possibly with white space around. -/
def Spells (source : Source) (text : String) : Prop :=
  ∃ left spelling right, text.toList = left ++ (spelling ++ right) ∧ source.Spelling spelling ∧
    (∀ c ∈ left, isWhitespace c = true) ∧ ∀ c ∈ right, isWhitespace c = true

def locator (source : Source) : GitHubLocator where
  owner := toAsciiLowercase (.ofList source.owner)
  repository := toAsciiLowercase (.ofList source.repository)
  path := .ofList (source.path.rdropWhile (· == '/'))
  reference := .ofList source.reference

/-- The same source: the same reference, the same owner and repository up to ASCII case,
and the same path up to slashes at its end. -/
structure Same (source source' : Source) : Prop where
  owner : Recased source.owner source'.owner
  repository : Recased source.repository source'.repository
  path : ∃ stem j k, source.path = stem ++ List.replicate j '/' ∧
    source'.path = stem ++ List.replicate k '/'
  reference : source.reference = source'.reference

theorem locator_eq_iff {source source' : Source} :
    source.locator = source'.locator ↔ source.Same source' := by
  simp only [locator, GitHubLocator.mk.injEq, toAsciiLowercase, String.toList_ofList,
    String.ofList_inj, rdropWhile_eq_iff_stem]
  constructor
  · intro h
    obtain ⟨owners, repositories, paths, references⟩ := h
    exact ⟨owners.symm, repositories.symm, paths, references⟩
  · intro h
    exact ⟨h.owner.symm, h.repository.symm, h.path, h.reference⟩

end Source

section

variable {part part' suffix body : List Char}

theorem Recased.ne_nil (h : Recased part part') (hpart : part ≠ []) : part' ≠ [] := by
  rintro rfl
  exact hpart (List.map_eq_nil_iff.mp h.symm)

theorem Recased.not_mem (h : Recased part part') {c : Char} (hc : c.isAlpha = false)
    (hpart : c ∉ part) : c ∉ part' := by
  rw [← mem_map_toLower_iff hc, h, mem_map_toLower_iff hc]
  exact hpart

theorem Recased.free (h : Recased part part')
    (hpart : ∀ c ∈ ['/', '?', '#', '@'], c ∉ part) : ∀ c ∈ ['/', '?', '#', '@'], c ∉ part' := by
  intro c hc
  have other : c.isAlpha = false := by
    simp only [List.mem_cons, List.not_mem_nil, or_false] at hc
    rcases hc with rfl | rfl | rfl | rfl <;> decide
  exact h.not_mem other (hpart c hc)

private theorem Trailer.trimmed (h : Trailer suffix) {right : List Char}
    (hright : ∀ c ∈ right, isWhitespace c = true) :
    Trailer ((suffix ++ right).rdropWhile isWhitespace) := by
  cases suffix with
  | nil =>
      rw [List.nil_append, List.rdropWhile_eq_nil_iff.mpr hright]
      simp [Trailer]
  | cons c rest =>
      have mark : c = '?' ∨ c = '#' := h c (by simp)
      have solid : endsIn isWhitespace [c] = false := by
        rcases mark with rfl | rfl <;> decide
      rw [List.cons_append, ← List.singleton_append, rdropWhile_append solid]
      simpa [Trailer] using mark

private theorem upTo_trailer (h : Trailer suffix) (query : '?' ∉ body) (fragment : '#' ∉ body) :
    upTo '?' (upTo '#' (body ++ suffix)) = body := by
  cases suffix with
  | nil => rw [List.append_nil, upTo_eq_self fragment, upTo_eq_self query]
  | cons c rest =>
      rcases h c (by simp) with rfl | rfl
      · have other : '#' ∉ ['?'] := by decide
        have kept : upTo '#' ('?' :: rest) = '?' :: upTo '#' rest :=
          upTo_append_of_not_mem rest other
        rw [upTo_append_of_not_mem _ fragment, kept, upTo_append _ query]
      · rw [upTo_append rest fragment, upTo_eq_self query]

private theorem endsIn_slashes (path : List Char) (k : Nat)
    (h : endsIn isWhitespace path = false) :
    endsIn isWhitespace ('/' :: (path ++ List.replicate k '/')) = false := by
  cases k with
  | zero =>
      rw [List.replicate_zero, List.append_nil]
      by_cases empty : path = []
      · rw [empty]
        decide
      · rw [← List.singleton_append, endsIn_append empty]
        exact h
  | succ k =>
      rw [List.replicate_succ', ← List.append_assoc, ← List.cons_append,
        endsIn_append (List.cons_ne_nil _ _)]
      decide

end

namespace Source

variable {source : Source} {owner repository kind suffix left right : List Char}

private theorem ofParts_eq_locator (howner : Recased source.owner owner)
    (hrepository : Recased source.repository repository) (k : Nat) :
    GitHubLocator.ofParts owner repository (source.path ++ List.replicate k '/')
      source.reference = source.locator := by
  unfold Recased at howner hrepository
  simp only [GitHubLocator.ofParts, locator, toAsciiLowercase, String.toList_ofList,
    rdropWhile_append_replicate, howner, hrepository]

private theorem parse_padded_browser {text : String} {body : List Char}
    (same : text.toList = left ++ (browserPrefix.toList ++ body ++ suffix ++ right))
    (hleft : ∀ c ∈ left, isWhitespace c = true) (hright : ∀ c ∈ right, isWhitespace c = true)
    (ends : endsIn isWhitespace (browserPrefix.toList ++ body) = false) (trailer : Trailer suffix) :
    ∃ suffix', Trailer suffix' ∧
      GitHubLocator.parse text = GitHubLocator.fromBrowser (body ++ suffix') := by
  refine ⟨(suffix ++ right).rdropWhile isWhitespace, trailer.trimmed hright, ?_⟩
  have opens : browserPrefix.toList = 'h' :: browserPrefix.toList.tail := rfl
  apply GitHubLocator.parse_of_browser
  rw [opens, List.cons_append] at ends
  rw [same, opens, List.append_assoc, List.cons_append,
    trim_padded hleft (x := 'h') (by decide) ends, List.cons_append, List.cons_append,
    List.append_assoc]

private theorem parse_padded_canonical {text : String} {body : List Char}
    (same : text.toList = left ++ (scheme.toList ++ body ++ right))
    (hleft : ∀ c ∈ left, isWhitespace c = true) (hright : ∀ c ∈ right, isWhitespace c = true)
    (ends : endsIn isWhitespace (scheme.toList ++ body) = false) :
    GitHubLocator.parse text = GitHubLocator.fromCanonical body := by
  have opens : scheme.toList = 'g' :: scheme.toList.tail := rfl
  apply GitHubLocator.parse_of_canonical
  rw [opens, List.cons_append] at ends
  rw [same, opens, List.cons_append, trim_padded hleft (x := 'g') (by decide) ends,
    List.rdropWhile_eq_nil_iff.mpr hright, List.append_nil]

private theorem fromBrowser_spelling (howner : Recased source.owner owner)
    (hrepository : Recased source.repository repository)
    (hkind : kind ∈ ["tree".toList, "blob".toList]) (trailer : Trailer suffix)
    (path : Option (List Char)) (k : Nat)
    (hpath : path.getD [] = source.path ++ List.replicate k '/') :
    GitHubLocator.fromBrowser (['/'].intercalate
      (owner :: repository :: kind :: source.reference :: path.toList) ++ suffix) =
        .ok source.locator := by
  have kinds : kind = "tree".toList ∨ kind = "blob".toList := by
    simpa using hkind
  have fixed : '/' ∉ kind ∧ '?' ∉ kind ∧ '#' ∉ kind := by
    rcases kinds with rfl | rfl <;> decide
  have free (c : Char) (hc : c ∈ ['?', '#']) : c ∉ ['/'].intercalate
      (owner :: repository :: kind :: source.reference :: path.toList) := by
    simp only [List.mem_cons, List.not_mem_nil, or_false] at hc
    have marks : c ∈ ['/', '?', '#', '@'] ∧ c ∈ ['?', '#', '@'] ∧ c ≠ '/' ∧ c ∉ kind := by
      rcases hc with rfl | rfl <;> simp [fixed]
    obtain ⟨separator, pathMark, other, hk⟩ := marks
    have ho := howner.free source.owner_free c separator
    have hr := hrepository.free source.repository_free c separator
    have hg := source.reference_free c separator
    have hp : c ∉ path.getD [] := by
      rw [hpath]
      simp [source.path_free c pathMark, other]
    cases path <;> simp_all
  have so := howner.free source.owner_free '/' (by simp)
  have sr := hrepository.free source.repository_free '/' (by simp)
  have sg := source.reference_free '/' (by simp)
  rw [GitHubLocator.fromBrowser_eq_ok_iff, GitHubLocator.browserSegments,
    upTo_trailer trailer (free '?' (by simp)) (free '#' (by simp)),
    GitHubLocator.splitOn_browser_parts so sr fixed.1 sg]
  refine ⟨owner, repository, kind, source.reference, _, rfl, howner.ne_nil source.owner_ne,
    hrepository.ne_nil source.repository_ne, source.reference_ne, kinds,
    howner.free source.owner_free '@' (by simp),
    hrepository.free source.repository_free '@' (by simp),
    source.reference_free '@' (by simp), ?_⟩
  have joined : ['/'].intercalate (path.elim [] (List.splitOn '/')) = path.getD [] := by
    cases path with
    | none => rfl
    | some path => exact List.intercalate_splitOn '/'
  rw [joined, hpath, ofParts_eq_locator howner hrepository]

private theorem fromCanonical_spelling (howner : Recased source.owner owner)
    (hrepository : Recased source.repository repository)
    (path : Option (List Char)) (k : Nat)
    (hpath : path.getD [] = source.path ++ List.replicate k '/') :
    GitHubLocator.fromCanonical (['/'].intercalate (owner :: repository :: path.toList) ++
      "?ref=".toList ++ source.reference) = .ok source.locator := by
  have parts : ['/'].intercalate (owner :: repository :: path.toList) =
      GitHubLocator.pathPart owner repository path := by
    cases path <;> simp [GitHubLocator.pathPart]
  have free (c : Char) (hc : c ∈ ['?', '@']) :
      c ∉ GitHubLocator.pathPart owner repository path := by
    simp only [List.mem_cons, List.not_mem_nil, or_false] at hc
    have marks : c ∈ ['/', '?', '#', '@'] ∧ c ∈ ['?', '#', '@'] ∧ c ≠ '/' := by
      rcases hc with rfl | rfl <;> simp
    obtain ⟨separator, pathMark, other⟩ := marks
    have ho := howner.free source.owner_free c separator
    have hr := hrepository.free source.repository_free c separator
    have hp : c ∉ path.getD [] := by
      rw [hpath]
      simp [source.path_free c pathMark, other]
    cases path <;> simp_all [GitHubLocator.pathPart]
  rw [parts, GitHubLocator.fromCanonical_eq_ok_iff]
  refine ⟨?_, owner, repository, path, source.reference, by simp, free '?' (by simp),
    source.reference_ne, howner.ne_nil source.owner_ne, hrepository.ne_nil source.repository_ne,
    howner.free source.owner_free '/' (by simp),
    hrepository.free source.repository_free '/' (by simp), ?_⟩
  · simp [free '@' (by simp), source.reference_free '@' (by simp)]
  · rw [hpath, ofParts_eq_locator howner hrepository]

theorem parse_of_spells {text : String} (h : source.Spells text) :
    GitHubLocator.parse text = .ok source.locator := by
  obtain ⟨left, spelling, right, same, spelled, hleft, hright⟩ := h
  have reference_last (front : List Char) :
      endsIn isWhitespace (front ++ source.reference) = false := by
    rw [endsIn_append source.reference_ne]
    exact source.reference_ends
  cases spelled with
  | canonical k howner hrepository =>
      rw [List.append_assoc scheme.toList, List.append_assoc scheme.toList] at same
      rw [parse_padded_canonical same hleft hright]
      · exact fromCanonical_spelling howner hrepository (some _) k rfl
      · rw [← List.append_assoc]
        exact reference_last _
  | canonicalRoot root howner hrepository =>
      rw [List.append_assoc scheme.toList, List.append_assoc scheme.toList] at same
      rw [parse_padded_canonical same hleft hright]
      · exact fromCanonical_spelling howner hrepository none 0 (by simp [root])
      · rw [← List.append_assoc]
        exact reference_last _
  | @browser owner repository kind suffix k howner hrepository hkind trailer =>
      obtain ⟨suffix', trailer', read⟩ := parse_padded_browser same hleft hright (by
        simp only [List.intercalate_cons_cons, List.intercalate_singleton, List.append_assoc,
          List.singleton_append]
        have slashes := endsIn_slashes source.path k source.path_ends
        rw [← endsIn_append_cons (browserPrefix.toList ++ (owner ++ '/' :: (repository ++ '/' ::
          (kind ++ '/' :: source.reference))))] at slashes
        simpa using slashes) trailer
      rw [read]
      exact fromBrowser_spelling howner hrepository hkind trailer' (some _) k rfl
  | @browserRoot owner repository kind suffix root howner hrepository hkind trailer =>
      obtain ⟨suffix', trailer', read⟩ := parse_padded_browser same hleft hright (by
        have last := reference_last (browserPrefix.toList ++ (owner ++ '/' :: (repository ++ '/' ::
          (kind ++ ['/']))))
        simpa using last) trailer
      rw [read]
      exact fromBrowser_spelling howner hrepository hkind trailer' none 0 (by simp [root])

/-- All spellings of one source are read as one locator, and two sources have the same
locator exactly when they are the same. -/
theorem one_locator_per_source (source source' : Source) :
    (∀ text, source.Spells text → GitHubLocator.parse text = .ok source.locator) ∧
      (source.locator = source'.locator ↔ source.Same source') :=
  ⟨fun _ => parse_of_spells, locator_eq_iff⟩

def payments : Source where
  owner := ['o', 'R', 'g']
  repository := ['P', 'a', 'y']
  path := ['s', 'r', 'c', '/', 'a']
  reference := ['m', 'a', 'i', 'n']
  owner_ne := by decide
  repository_ne := by decide
  reference_ne := by decide
  owner_free := by simp
  repository_free := by simp
  reference_free := by simp
  path_free := by simp
  reference_ends := by decide
  path_ends := by decide

def fork : Source :=
  { payments with
    owner := ['f']
    owner_ne := by decide
    owner_free := by simp }

private theorem spells_payments :
    payments.Spells " https://github.com/ORG/pay/blob/main/src/a//?plain=1#L3\n" := by
  have spelled : payments.Spelling (browserPrefix.toList ++
      ['/'].intercalate [['O', 'R', 'G'], ['p', 'a', 'y'], "blob".toList, payments.reference,
        payments.path ++ List.replicate 2 '/'] ++ "?plain=1#L3".toList) :=
    .browser 2 rfl rfl (by decide) (by simp [Trailer])
  exact ⟨[' '], _, ['\n'], by decide, spelled, by simp; decide, by simp; decide⟩

theorem one_locator_per_source_payments :
    GitHubLocator.parse " https://github.com/ORG/pay/blob/main/src/a//?plain=1#L3\n" =
        .ok payments.locator ∧
      (payments.locator = fork.locator ↔ payments.Same fork) := by
  obtain ⟨read, told⟩ := one_locator_per_source payments fork
  exact ⟨read _ spells_payments, told⟩

end Source

end GitHubProvider.Locator
