/- What the three calls make of an answer, and the codes they fail with. -/

import GitHubProvider.Api

set_option autoImplicit false
set_option relaxedAutoImplicit false

namespace GitHubProvider.Api

open Http (Answer Response)
open Json (SerdeJson Value)

section

variable {α β ε : Type}

private theorem bind_eq_ok_iff {x : Except ε α} {f : α → Except ε β} {b : β} :
    (x >>= f) = .ok b ↔ ∃ a, x = .ok a ∧ f a = .ok b := by
  cases x <;> simp [bind, Except.bind]

private theorem bind_eq_error_iff {x : Except ε α} {f : α → Except ε β} {e : ε} :
    (x >>= f) = .error e ↔ x = .error e ∨ ∃ a, x = .ok a ∧ f a = .error e := by
  cases x <;> simp [bind, Except.bind]

theorem mapM_eq_ok_iff {f : α → Except ε β} {xs : List α} {ys : List β} :
    xs.mapM f = .ok ys ↔ List.Forall₂ (fun x y => f x = .ok y) xs ys := by
  induction xs generalizing ys with
  | nil =>
      simp only [List.mapM_nil, List.forall₂_nil_left_iff, pure, Except.pure, Except.ok.injEq,
        eq_comm]
  | cons x xs ih =>
      simp only [List.mapM_cons, bind_eq_ok_iff, List.forall₂_cons_left_iff, ih, pure, Except.pure,
        Except.ok.injEq]
      constructor
      · intro h
        obtain ⟨y, hy, rest, hrest, rfl⟩ := h
        exact ⟨y, rest, hy, hrest, rfl⟩
      · intro h
        obtain ⟨y, rest, hy, hrest, rfl⟩ := h
        exact ⟨y, hy, rest, hrest, rfl⟩

theorem exists_of_mem_forall₂ {R : α → β → Prop} {xs : List α} {ys : List β}
    (h : List.Forall₂ R xs ys) {y : β} (hy : y ∈ ys) : ∃ x ∈ xs, R x y := by
  induction h with
  | nil => cases hy
  | @cons x y' _ _ related _ ih =>
      rcases List.mem_cons.mp hy with rfl | hrest
      · exact ⟨x, by simp, related⟩
      · obtain ⟨x', hx', related'⟩ := ih hrest
        exact ⟨x', by simp [hx'], related'⟩

theorem mapM_eq_error {f : α → Except ε β} {xs : List α} {e : ε} (h : xs.mapM f = .error e) :
    ∃ x ∈ xs, f x = .error e := by
  induction xs with
  | nil => cases h
  | cons x xs ih =>
      simp only [List.mapM_cons, bind_eq_error_iff] at h
      rcases h with hx | ⟨y, -, hrest | ⟨ys, -, h⟩⟩
      · exact ⟨x, by simp, hx⟩
      · obtain ⟨x', hx', he⟩ := ih hrest
        exact ⟨x', by simp [hx'], he⟩
      · cases h

end

def hostCodes : List ProviderCode :=
  [.credentialRequired, .credentialRejected, .sourceUnavailable, .limitExceeded]

theorem judge_code {response : Response} {authenticated : Bool} {error : ApiError}
    (h : judge response authenticated = .error error) : error.code ∈ hostCodes := by
  unfold judge at h
  dsimp only at h
  split_ifs at h <;> cases h <;> simp [hostCodes]

theorem accepted_eq_ok_iff {answer : Answer} {authenticated : Bool} {response : Response} :
    accepted answer authenticated = .ok response ↔
      answer = .ok response ∧ judge response authenticated = .ok () := by
  cases answer with
  | error reason => simp [accepted, Except.mapError, bind_eq_ok_iff]
  | ok found =>
      simp only [accepted, Except.mapError, bind_eq_ok_iff, pure, Except.pure, Except.ok.injEq]
      constructor
      · intro h
        obtain ⟨_, rfl, ⟨⟩, judged, rfl⟩ := h
        exact ⟨rfl, judged⟩
      · intro h
        obtain ⟨rfl, judged⟩ := h
        exact ⟨_, rfl, (), judged, rfl⟩

theorem accepted_refused {response : Response} {authenticated : Bool} {error : ApiError}
    (h : judge response authenticated = .error error) :
    accepted (.ok response) authenticated = .error error := by
  simp only [accepted, Except.mapError, bind, Except.bind, h]

theorem accepted_code {answer : Answer} {authenticated : Bool} {error : ApiError}
    (h : accepted answer authenticated = .error error) : error.code ∈ hostCodes := by
  simp only [accepted, bind_eq_error_iff] at h
  rcases h with failed | ⟨response, -, judged | ⟨-, -, impossible⟩⟩
  · cases answer with
    | error reason =>
        cases failed
        simp [hostCodes]
    | ok response => cases failed
  · exact judge_code judged
  · cases impossible

theorem treeEntry_eq_ok_iff {item : Value} {entry : TreeEntry} :
    treeEntry item = .ok entry ↔
      item.strAt "path" = some entry.path ∧ item.strAt "sha" = some entry.blobId ∧
        ((item.get "size").bind Value.asU64).getD 0 = entry.bytes := by
  obtain ⟨path, bytes, blobId⟩ := entry
  unfold treeEntry
  cases item.strAt "path" with
  | none => simp
  | some path' => cases item.strAt "sha" <;> simp [and_comm]

theorem treeEntry_code {item : Value} {error : ApiError}
    (h : treeEntry item = .error error) : error.code ∈ hostCodes := by
  unfold treeEntry at h
  split at h
  · cases h
    simp [hostCodes]
  · split at h <;> cases h
    simp [hostCodes]

section

variable [SerdeJson]

theorem bodyJson_eq_ok_iff {response : Response} {document : Value} :
    bodyJson response = .ok document ↔
      SerdeJson.fromSlice response.body.toList = .ok document := by
  unfold bodyJson
  cases SerdeJson.fromSlice response.body.toList <;> simp [Except.mapError]

theorem bodyJson_code {response : Response} {error : ApiError}
    (h : bodyJson response = .error error) : error.code ∈ hostCodes := by
  unfold bodyJson at h
  cases read : SerdeJson.fromSlice response.body.toList with
  | error message =>
      rw [read] at h
      cases h
      simp [hostCodes]
  | ok document =>
      rw [read] at h
      cases h

theorem namedCommit_refused {answer : Answer} {authenticated : Bool} {error : ApiError}
    (h : accepted answer authenticated = .error error) :
    namedCommit answer authenticated = .error error := by
  simp only [namedCommit, h, bind, Except.bind]

theorem namedCommit_eq_ok_iff {answer : Answer} {authenticated : Bool} {commit : String} :
    namedCommit answer authenticated = .ok commit ↔
      ∃ response document, accepted answer authenticated = .ok response ∧
        SerdeJson.fromSlice response.body.toList = .ok document ∧
        document.strAt "sha" = some commit ∧ commit ≠ "" := by
  simp only [namedCommit, bind_eq_ok_iff, bodyJson_eq_ok_iff]
  constructor
  · intro h
    obtain ⟨response, haccepted, document, hdocument, h⟩ := h
    split at h
    · rename_i sha named
      cases h
      obtain ⟨stated, full⟩ := Option.filter_eq_some_iff.mp named
      exact ⟨response, document, haccepted, hdocument, stated, by simpa using full⟩
    · cases h
  · intro h
    obtain ⟨response, document, haccepted, hdocument, stated, full⟩ := h
    refine ⟨response, haccepted, document, hdocument, ?_⟩
    have named : (document.strAt "sha").filter (fun sha => !sha.isEmpty) = some commit :=
      Option.filter_eq_some_iff.mpr ⟨stated, by simpa using full⟩
    rw [named]
    rfl

theorem listing_refused {answer : Answer} {authenticated : Bool} {error : ApiError}
    (h : accepted answer authenticated = .error error) :
    listing answer authenticated = .error error := by
  simp only [listing, h, bind, Except.bind]

/-- A listing is complete: every item that is a blob, in the host's order. -/
theorem listing_eq_ok_iff {answer : Answer} {authenticated : Bool} {tree : Tree} :
    listing answer authenticated = .ok tree ↔
      ∃ response document items, accepted answer authenticated = .ok response ∧
        SerdeJson.fromSlice response.body.toList = .ok document ∧
        (document.get "truncated").bind Value.asBool ≠ some true ∧
        (document.get "tree").bind Value.asArray = some items ∧
        List.Forall₂ (fun item entry => treeEntry item = .ok entry) (items.filter isBlob)
          tree.entries := by
  simp only [listing, bind_eq_ok_iff, bodyJson_eq_ok_iff]
  constructor
  · intro h
    obtain ⟨response, haccepted, document, hdocument, h⟩ := h
    split at h
    · cases h
    rename_i complete
    split at h
    · cases h
    rename_i items hitems
    obtain ⟨entries, hentries, hpure⟩ := bind_eq_ok_iff.mp h
    cases hpure
    exact ⟨response, document, items, haccepted, hdocument, complete, hitems,
      mapM_eq_ok_iff.mp hentries⟩
  · intro h
    obtain ⟨response, document, items, haccepted, hdocument, complete, hitems, hentries⟩ := h
    refine ⟨response, haccepted, document, hdocument, ?_⟩
    rw [if_neg complete, hitems]
    exact bind_eq_ok_iff.mpr ⟨tree.entries, mapM_eq_ok_iff.mpr hentries, rfl⟩

theorem listing_code {answer : Answer} {authenticated : Bool} {error : ApiError}
    (h : listing answer authenticated = .error error) : error.code ∈ hostCodes := by
  simp only [listing, bind_eq_error_iff] at h
  rcases h with refused | ⟨response, -, unread | ⟨document, -, h⟩⟩
  · exact accepted_code refused
  · exact bodyJson_code unread
  split at h
  · cases h
    simp [hostCodes]
  split at h
  · cases h
    simp [hostCodes]
  rcases bind_eq_error_iff.mp h with malformed | ⟨entries, -, impossible⟩
  · obtain ⟨item, -, hitem⟩ := mapM_eq_error malformed
    exact treeEntry_code hitem
  · cases impossible

end

end GitHubProvider.Api
