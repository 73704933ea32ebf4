/- The grammar of the two locator forms, and the fault each other text is refused for. -/

import GitHubProvider.Locator.Canonical

set_option autoImplicit false
set_option relaxedAutoImplicit false

namespace GitHubProvider.Locator

open Text

/-- Of clauses in order, the first whose condition holds gives the value. -/
inductive First {ε : Type} : List (Prop × ε) → ε → Prop
  | here {condition : Prop} {value : ε} {rest : List (Prop × ε)} :
      condition → First ((condition, value) :: rest) value
  | later {condition : Prop} {value value' : ε} {rest : List (Prop × ε)} :
      ¬condition → First rest value' → First ((condition, value) :: rest) value'

section

variable {ε α : Type} {condition guard : Prop} {value value' : ε} {rest : List (Prop × ε)}

theorem first_cons_of_pos (h : condition) :
    First ((condition, value) :: rest) value' ↔ value' = value := by
  constructor
  · intro first
    cases first with
    | here => rfl
    | later fails => exact absurd h fails
  · rintro rfl
    exact .here h

theorem first_cons_of_neg (h : ¬condition) :
    First ((condition, value) :: rest) value' ↔ First rest value' := by
  constructor
  · intro first
    cases first with
    | here holds => exact absurd holds h
    | later _ first => exact first
  · exact .later h

theorem first_singleton : First [(condition, value)] value' ↔ condition ∧ value' = value := by
  constructor
  · intro first
    cases first with
    | here holds => exact ⟨holds, rfl⟩
    | later _ none => cases none
  · intro h
    obtain ⟨holds, rfl⟩ := h
    exact .here holds

theorem guard_error_iff [Decidable guard] {next : Except ε α} (same : guard ↔ condition)
    (h : ¬condition → (next = .error value' ↔ First rest value')) :
    (if guard then .error value else next) = .error value' ↔
      First ((condition, value) :: rest) value' := by
  by_cases holds : condition
  · rw [first_cons_of_pos holds, if_pos (same.mpr holds), Except.error.injEq, eq_comm]
  · rw [first_cons_of_neg holds, if_neg fun g => holds (same.mp g)]
    exact h holds

end

namespace GitHubLocator

/-- The piece of a text between two slashes; an absent piece is an empty one. -/
def segment (text : List Char) (i : Nat) : List Char := (text.splitOn '/').getD i []

private theorem mem_of_mem_segment {text : List Char} {i : Nat} {c : Char}
    (h : c ∈ segment text i) : c ∈ text := by
  unfold segment at h
  by_cases present : i < (text.splitOn '/').length
  · rw [List.getD_eq_getElem _ _ present] at h
    exact mem_of_mem_splitOn (List.getElem_mem present) h
  · rw [List.getD_eq_default _ _ (by omega)] at h
    cases h

/-- What a browser URL can be refused for, in the order in which it is looked for. -/
def browserFaults (text : List Char) : List (Prop × LocatorError) := [
  (segment text 0 = [], .noOwner),
  (segment text 1 = [], .noRepository),
  (segment text 2 ∉ ["tree".toList, "blob".toList], .noReference),
  (segment text 3 = [], .emptyReference),
  ('@' ∈ segment text 0 ∨ '@' ∈ segment text 1 ∨ '@' ∈ segment text 3, .credentialPresent)]

def BrowserPart (part : List Char) : Prop := part ≠ [] ∧ '/' ∉ part ∧ '@' ∉ part

/-- `owner/repository/tree/reference` or `owner/repository/blob/reference`, and
possibly a path after a further slash. -/
def BrowserForm (text : List Char) : Prop :=
  ∃ owner repository kind reference, BrowserPart owner ∧ BrowserPart repository ∧
    BrowserPart reference ∧ kind ∈ ["tree".toList, "blob".toList] ∧
    (text = ['/'].intercalate [owner, repository, kind, reference] ∨
      ∃ path, text = ['/'].intercalate [owner, repository, kind, reference, path])

private theorem build_eq_error_iff {owner repository path reference : List Char}
    {error : LocatorError} :
    build owner repository path reference = .error error ↔
      ('@' ∈ owner ∨ '@' ∈ repository ∨ '@' ∈ reference) ∧ error = .credentialPresent := by
  simp only [build, List.any_cons, List.any_nil, Bool.or_false, Bool.or_eq_true,
    List.contains_iff_mem]
  split
  · rename_i present
    simp only [Except.error.injEq, present, true_and, eq_comm]
  · rename_i absent
    simp only [reduceCtorEq, absent, false_and]

theorem fromBrowser_eq_error_iff {rest : List Char} {error : LocatorError} :
    fromBrowser rest = .error error ↔ First (browserFaults (upTo '?' (upTo '#' rest))) error := by
  simp only [fromBrowser, browserFaults, segment]
  generalize (upTo '?' (upTo '#' rest)).splitOn '/' = segments
  refine guard_error_iff List.isEmpty_iff fun _ => ?_
  refine guard_error_iff List.isEmpty_iff fun _ => ?_
  have third : segments.getD 2 [] = segments[2]?.getD [] := List.getD_eq_getElem?_getD
  cases present : segments[2]? with
  | none =>
      rw [first_cons_of_pos (by simp [present]), Except.error.injEq, eq_comm]
  | some kind =>
      have kinds : segments.getD 2 [] ∈ ["tree".toList, "blob".toList] ↔
          kind = "tree".toList ∨ kind = "blob".toList := by
        simp only [third, present, Option.getD_some, List.mem_cons, List.not_mem_nil, or_false]
      rw [kinds]
      show (if _ then _ else _) = _ ↔ _
      by_cases known : kind = "tree".toList ∨ kind = "blob".toList
      · rw [if_pos known, first_cons_of_neg (not_not_intro known)]
        refine guard_error_iff List.isEmpty_iff fun _ => ?_
        rw [build_eq_error_iff, first_singleton]
      · rw [if_neg known, first_cons_of_pos known, Except.error.injEq, eq_comm]

theorem splitOn_browser_parts {owner repository kind reference : List Char}
    (so : '/' ∉ owner) (sr : '/' ∉ repository) (sk : '/' ∉ kind) (sg : '/' ∉ reference)
    (path : Option (List Char)) :
    (['/'].intercalate (owner :: repository :: kind :: reference :: path.toList)).splitOn '/' =
      owner :: repository :: kind :: reference :: path.elim [] (List.splitOn '/') := by
  cases path with
  | none => exact List.splitOn_intercalate '/' (by simp [so, sr, sk, sg]) (by simp)
  | some path =>
      simp only [Option.toList_some, List.intercalate_cons_cons, List.intercalate_singleton,
        List.append_assoc, List.singleton_append, Option.elim_some]
      rw [List.splitOn_append_cons_self_of_not_mem so, List.splitOn_append_cons_self_of_not_mem sr,
        List.splitOn_append_cons_self_of_not_mem sk, List.splitOn_append_cons_self_of_not_mem sg]

theorem fromBrowser_ok_iff {rest : List Char} :
    (∃ l, fromBrowser rest = .ok l) ↔ BrowserForm (upTo '?' (upTo '#' rest)) := by
  simp only [fromBrowser_eq_ok_iff, browserSegments]
  generalize upTo '?' (upTo '#' rest) = text
  constructor
  · intro h
    obtain ⟨_, owner, repository, kind, reference, path, split, howner, hrepository, hreference,
      hkind, ho, hr, hg, -⟩ := h
    have joined : text = ['/'].intercalate (owner :: repository :: kind :: reference :: path) := by
      rw [← split, List.intercalate_splitOn]
    have unslashed : ∀ part ∈ owner :: repository :: kind :: reference :: path, '/' ∉ part := by
      rw [← split]
      exact fun _ hpart => separator_not_mem_splitOn hpart
    refine ⟨owner, repository, kind, reference, ⟨howner, unslashed owner (by simp), ho⟩,
      ⟨hrepository, unslashed repository (by simp), hr⟩, ⟨hreference, unslashed reference (by simp),
      hg⟩, by simpa using hkind, ?_⟩
    cases path with
    | nil => exact .inl joined
    | cons first others =>
        refine .inr ⟨['/'].intercalate (first :: others), joined.trans ?_⟩
        simp only [List.intercalate_cons_cons, List.intercalate_singleton]
  · intro h
    obtain ⟨owner, repository, kind, reference, ⟨howner, so, ho⟩, ⟨hrepository, sr, hr⟩,
      ⟨hreference, sg, hg⟩, hkind, form⟩ := h
    have sk : '/' ∉ kind := by
      simp only [List.mem_cons, List.not_mem_nil, or_false] at hkind
      rcases hkind with rfl | rfl <;> decide
    have kinds : kind = "tree".toList ∨ kind = "blob".toList := by
      simpa using hkind
    rcases form with rfl | ⟨path, rfl⟩
    · exact ⟨_, owner, repository, kind, reference, [], splitOn_browser_parts so sr sk sg none,
        howner, hrepository, hreference, kinds, ho, hr, hg, rfl⟩
    · exact ⟨_, owner, repository, kind, reference, path.splitOn '/',
        splitOn_browser_parts so sr sk sg (some path), howner, hrepository, hreference, kinds, ho,
        hr, hg, rfl⟩

theorem segment_pathPart {owner repository : List Char} (path : Option (List Char))
    (howner : '/' ∉ owner) (hrepository : '/' ∉ repository) :
    segment (pathPart owner repository path) 0 = owner ∧
      segment (pathPart owner repository path) 1 = repository := by
  cases path with
  | none =>
      rw [segment, segment, pathPart, List.splitOn_append_cons_self_of_not_mem howner,
        List.splitOn_eq_singleton hrepository]
      exact ⟨rfl, rfl⟩
  | some path =>
      rw [segment, segment, pathPart, List.splitOn_append_cons_self_of_not_mem howner,
        List.splitOn_append_cons_self_of_not_mem hrepository]
      exact ⟨rfl, rfl⟩

/-- What a canonical text can be refused for, in the order in which it is looked for. -/
def canonicalFaults (text : List Char) : List (Prop × LocatorError) := [
  ('@' ∈ text, .credentialPresent),
  (¬∃ before reference, text = before ++ '?' :: ("ref=".toList ++ reference) ∧ '?' ∉ before,
    .noReference),
  (∃ before, text = before ++ '?' :: "ref=".toList ∧ '?' ∉ before, .emptyReference),
  (segment (upTo '?' text) 0 = [], .noOwner),
  (segment (upTo '?' text) 1 = [], .noRepository)]

def CanonicalName (part : List Char) : Prop := part ≠ [] ∧ '/' ∉ part ∧ '?' ∉ part

/-- `owner/repository?ref=reference` or `owner/repository/path?ref=reference`, with no
`@` anywhere. -/
def CanonicalForm (text : List Char) : Prop :=
  '@' ∉ text ∧ ∃ owner repository reference, CanonicalName owner ∧ CanonicalName repository ∧
    reference ≠ [] ∧
    (text = ['/'].intercalate [owner, repository] ++ "?ref=".toList ++ reference ∨
      ∃ path, '?' ∉ path ∧
        text = ['/'].intercalate [owner, repository, path] ++ "?ref=".toList ++ reference)

section

variable {part query reference : List Char}

private theorem asks_iff (fresh : '?' ∉ part) :
    (∃ before reference, part ++ '?' :: query = before ++ '?' :: ("ref=".toList ++ reference) ∧
      '?' ∉ before) ↔ ∃ reference, query = "ref=".toList ++ reference := by
  constructor
  · intro h
    obtain ⟨before, reference, same, free⟩ := h
    exact ⟨reference, ((separated_inj fresh free).mp same).2⟩
  · intro h
    obtain ⟨reference, rfl⟩ := h
    exact ⟨part, reference, rfl, fresh⟩

private theorem asks_empty_iff (fresh : '?' ∉ part) :
    (∃ before, part ++ '?' :: ("ref=".toList ++ reference) = before ++ '?' :: "ref=".toList ∧
      '?' ∉ before) ↔ reference = [] := by
  constructor
  · intro h
    obtain ⟨before, same, free⟩ := h
    exact List.append_right_eq_self.mp ((separated_inj fresh free).mp same).2
  · rintro rfl
    exact ⟨part, by rw [List.append_nil], fresh⟩

private theorem build_of_clean {path : List Char} {error : LocatorError}
    (clean : '@' ∉ part ++ '?' :: ("ref=".toList ++ reference)) :
    build ((part.splitOn '/').getD 0 []) ((part.splitOn '/').getD 1 []) path reference ≠
      .error error := by
  intro h
  obtain ⟨credential, -⟩ := build_eq_error_iff.mp h
  apply clean
  rcases credential with inOwner | inRepository | inReference
  · exact List.mem_append_left _ (mem_of_mem_segment inOwner)
  · exact List.mem_append_left _ (mem_of_mem_segment inRepository)
  · simp [inReference]

end

theorem fromCanonical_eq_error_iff {rest : List Char} {error : LocatorError} :
    fromCanonical rest = .error error ↔ First (canonicalFaults rest) error := by
  simp only [fromCanonical, canonicalFaults, segment]
  refine guard_error_iff List.contains_iff_mem fun clean => ?_
  cases cut : splitOnce '?' rest with
  | none =>
      have unasked : ¬∃ before reference, rest = before ++ '?' :: ("ref=".toList ++ reference) ∧
          '?' ∉ before := by
        intro h
        obtain ⟨before, reference, rfl, -⟩ := h
        exact splitOnce_eq_none_iff.mp cut (by simp)
      rw [first_cons_of_pos unasked, Except.error.injEq, eq_comm]
  | some sides =>
      obtain ⟨part, query⟩ := sides
      obtain ⟨rfl, fresh⟩ := splitOnce_eq_some_iff.mp cut
      rw [upTo_append query fresh, asks_iff fresh]
      dsimp only
      cases asked : query.dropPrefix? "ref=".toList with
      | none =>
          have unasked : ¬∃ reference, query = "ref=".toList ++ reference := by
            intro h
            obtain ⟨reference, rfl⟩ := h
            rw [List.dropPrefix?_append_of_beq reference (by simp)] at asked
            cases asked
          rw [first_cons_of_pos unasked, Except.error.injEq, eq_comm]
      | some reference =>
          obtain ⟨ref, rfl, href⟩ := List.dropPrefix?_eq_some_iff.mp asked
          obtain rfl : ref = "ref=".toList := by simpa using href
          rw [first_cons_of_neg (not_not_intro ⟨reference, rfl⟩), asks_empty_iff fresh]
          show (if _ then _ else _) = _ ↔ _
          refine guard_error_iff List.isEmpty_iff fun _ => ?_
          rw [splitn_getD part (show 0 < 2 by omega), splitn_getD part (show 1 < 2 by omega)]
          refine guard_error_iff List.isEmpty_iff fun _ => ?_
          refine guard_error_iff List.isEmpty_iff fun _ => ?_
          exact ⟨fun h => absurd h (build_of_clean clean), fun h => by cases h⟩

theorem fromCanonical_ok_iff {rest : List Char} :
    (∃ l, fromCanonical rest = .ok l) ↔ CanonicalForm rest := by
  simp only [fromCanonical_eq_ok_iff, CanonicalForm]
  constructor
  · intro h
    obtain ⟨_, clean, owner, repository, path, reference, rfl, fresh, hreference, howner,
      hrepository, so, sr, -⟩ := h
    refine ⟨clean, owner, repository, reference, ?_⟩
    cases path with
    | none =>
        simp only [pathPart, List.mem_append, List.mem_cons, not_or] at fresh
        refine ⟨⟨howner, so, fresh.1⟩, ⟨hrepository, sr, fresh.2.2⟩, hreference, .inl ?_⟩
        simp [pathPart]
    | some path =>
        simp only [pathPart, List.mem_append, List.mem_cons, not_or] at fresh
        refine ⟨⟨howner, so, fresh.1⟩, ⟨hrepository, sr, fresh.2.2.1⟩, hreference,
          .inr ⟨path, fresh.2.2.2.2, ?_⟩⟩
        simp [pathPart]
  · intro h
    obtain ⟨clean, owner, repository, reference, ⟨howner, so, qo⟩, ⟨hrepository, sr, qr⟩,
      hreference, form⟩ := h
    rcases form with rfl | ⟨path, qp, rfl⟩
    · exact ⟨_, clean, owner, repository, none, reference, by simp [pathPart],
        by simp [pathPart, qo, qr], hreference, howner, hrepository, so, sr, rfl⟩
    · exact ⟨_, clean, owner, repository, some path, reference, by simp [pathPart],
        by simp [pathPart, qo, qr, qp], hreference, howner, hrepository, so, sr, rfl⟩

theorem parse_of_browser {text : String} {rest : List Char}
    (h : trim isWhitespace text.toList = browserPrefix.toList ++ rest) :
    parse text = fromBrowser rest := by
  have cut : (trim isWhitespace text.toList).dropPrefix? browserPrefix.toList = some rest := by
    rw [h]
    exact List.dropPrefix?_append_of_beq rest (by simp)
  simp only [parse, cut]

theorem parse_of_canonical {text : String} {rest : List Char}
    (h : trim isWhitespace text.toList = scheme.toList ++ rest) :
    parse text = fromCanonical rest := by
  have other : (trim isWhitespace text.toList).dropPrefix? browserPrefix.toList = none := by
    rw [h]
    simp [scheme, browserPrefix, List.dropPrefix?]
  have cut : (trim isWhitespace text.toList).dropPrefix? scheme.toList = some rest := by
    rw [h]
    exact List.dropPrefix?_append_of_beq rest (by simp)
  simp only [parse, other, cut]

theorem parse_of_other {text : String}
    (hbrowser : ∀ rest, trim isWhitespace text.toList ≠ browserPrefix.toList ++ rest)
    (hscheme : ∀ rest, trim isWhitespace text.toList ≠ scheme.toList ++ rest) :
    parse text = .error .notGitHub := by
  have dropped {front : List Char}
      (h : ∀ rest, trim isWhitespace text.toList ≠ front ++ rest) :
      (trim isWhitespace text.toList).dropPrefix? front = none := by
    rw [Option.eq_none_iff_forall_ne_some]
    intro rest cut
    obtain ⟨read, same, hread⟩ := List.dropPrefix?_eq_some_iff.mp cut
    obtain rfl : read = front := by simpa using hread
    exact h rest same
  simp only [parse, dropped hbrowser, dropped hscheme]

/-- The parser accepts the two forms and nothing else, and refuses every other text for
the first fault of the form that it has. -/
theorem parse_decides (text : String) :
    (∀ rest, trim isWhitespace text.toList = browserPrefix.toList ++ rest →
      ((∃ l, parse text = .ok l) ↔ BrowserForm (upTo '?' (upTo '#' rest))) ∧
        ∀ error, parse text = .error error ↔
          First (browserFaults (upTo '?' (upTo '#' rest))) error) ∧
    (∀ rest, trim isWhitespace text.toList = scheme.toList ++ rest →
      ((∃ l, parse text = .ok l) ↔ CanonicalForm rest) ∧
        ∀ error, parse text = .error error ↔ First (canonicalFaults rest) error) ∧
    ((∀ rest, trim isWhitespace text.toList ≠ browserPrefix.toList ++ rest) →
      (∀ rest, trim isWhitespace text.toList ≠ scheme.toList ++ rest) →
        parse text = .error .notGitHub) := by
  refine ⟨?_, ?_, parse_of_other⟩
  · intro rest browser
    rw [parse_of_browser browser]
    exact ⟨fromBrowser_ok_iff, fun _ => fromBrowser_eq_error_iff⟩
  · intro rest canonical
    rw [parse_of_canonical canonical]
    exact ⟨fromCanonical_ok_iff, fun _ => fromCanonical_eq_error_iff⟩

end GitHubLocator

end GitHubProvider.Locator
