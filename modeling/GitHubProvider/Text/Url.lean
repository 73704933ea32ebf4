/- A URL cut into the part that names a server, the part that is sent to it, and the rest. -/

import GitHubProvider.Text.Pieces

set_option autoImplicit false
set_option relaxedAutoImplicit false

namespace GitHubProvider.Text

/-- A URL with an authority. The query and the fragment stand without their marks. -/
structure Url where
  scheme : List Char
  authority : List Char
  path : List Char
  query : Option (List Char)
  fragment : Option (List Char)
  deriving DecidableEq

namespace Url

/-- The fragment starts at the first `#`, and the query at the first `?` before it. -/
def read (text : List Char) : Url :=
  let sent := upTo '#' text
  let place := upTo '?' sent
  let sides := (splitOnce ':' place).getD ([], place)
  let rest := (sides.2.dropPrefix? "//".toList).getD sides.2
  { scheme := sides.1
    authority := upTo '/' rest
    path := rest.drop (upTo '/' rest).length
    query := (splitOnce '?' sent).map Prod.snd
    fragment := (splitOnce '#' text).map Prod.snd }

/-- What a client sends of a URL: everything after the authority but the fragment. -/
def target (url : Url) : List Char := url.path ++ url.query.elim [] ('?' :: ·)

variable {scheme authority : List Char}

theorem read_append (tail : List Char) (colon : ':' ∉ scheme) (slash : '/' ∉ authority)
    (query : '?' ∉ scheme ++ authority) (fragment : '#' ∉ scheme ++ authority) :
    read (scheme ++ "://".toList ++ authority ++ '/' :: tail) =
      { scheme, authority
        path := '/' :: upTo '?' (upTo '#' tail)
        query := (splitOnce '?' (upTo '#' tail)).map Prod.snd
        fragment := (splitOnce '#' tail).map Prod.snd } := by
  let base := scheme ++ "://".toList ++ authority ++ ['/']
  have free (mark : Char) (h : mark ∉ scheme ++ authority) (other : mark ∉ "://".toList)
      (solid : mark ≠ '/') : mark ∉ base := by
    simp only [List.mem_append, not_or] at h
    simp only [base, List.mem_append, List.mem_singleton, not_or]
    exact ⟨⟨⟨h.1, other⟩, h.2⟩, solid⟩
  have query_free : '?' ∉ base := free '?' query (by decide) (by decide)
  have fragment_free : '#' ∉ base := free '#' fragment (by decide) (by decide)
  have text : scheme ++ "://".toList ++ authority ++ '/' :: tail = base ++ tail := by
    simp only [base, List.append_assoc, List.singleton_append]
  have place (path : List Char) : splitOnce ':' (base ++ path) =
      some (scheme, "//".toList ++ (authority ++ '/' :: path)) := by
    have shape : base ++ path = scheme ++ ':' :: ("//".toList ++ (authority ++ '/' :: path)) := by
      simp [base]
    rw [shape, splitOnce_append _ colon]
  have rest (path : List Char) :
      ("//".toList ++ (authority ++ '/' :: path)).dropPrefix? "//".toList =
        some (authority ++ '/' :: path) :=
    List.dropPrefix?_append_of_beq _ (by simp)
  simp only [read, text, upTo_append_of_not_mem _ fragment_free,
    upTo_append_of_not_mem _ query_free, splitOnce_append_snd _ fragment_free,
    splitOnce_append_snd _ query_free, place, Option.getD_some, rest, upTo_append _ slash,
    List.drop_left]

theorem read_append_eq_plain_iff {tail : List Char} (colon : ':' ∉ scheme)
    (slash : '/' ∉ authority) (query : '?' ∉ scheme ++ authority)
    (fragment : '#' ∉ scheme ++ authority) :
    read (scheme ++ "://".toList ++ authority ++ '/' :: tail) =
        ⟨scheme, authority, '/' :: tail, none, none⟩ ↔ '#' ∉ tail ∧ '?' ∉ tail := by
  rw [read_append tail colon slash query fragment]
  simp only [mk.injEq, Option.map_eq_none_iff, splitOnce_eq_none_iff, true_and]
  constructor
  · intro h
    obtain ⟨-, unasked, unmarked⟩ := h
    rw [upTo_eq_self unmarked] at unasked
    exact ⟨unmarked, unasked⟩
  · intro h
    obtain ⟨unmarked, unasked⟩ := h
    rw [upTo_eq_self unmarked, upTo_eq_self unasked]
    exact ⟨rfl, unasked, unmarked⟩

end Url

example : (Url.read "https://h/a?b=c#d?e".toList).target = "/a?b=c".toList := by decide

end GitHubProvider.Text
