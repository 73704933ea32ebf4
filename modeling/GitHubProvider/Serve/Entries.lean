/- A listing is complete or refused: what an enumerate reply says of the host's answer. -/

import GitHubProvider.Api.Codes
import GitHubProvider.Serve.Calls

set_option autoImplicit false
set_option relaxedAutoImplicit false

namespace GitHubProvider.Serve

open Api (Success Tree TreeEntry enumerateTree isBlob listing listing_eq_ok_iff treeEntry
  treeEntry_eq_ok_iff treeGet)
open Http (Get Response)
open Json (SerdeJson Value)

/-- The entry says of a file what the item does; a size that is not an unsigned integer of
64 bits counts as 0. -/
structure Describes (item : Value) (entry : TreeEntry) : Prop where
  path : item.get "path" = some (.string entry.path)
  blobId : item.get "sha" = some (.string entry.blobId)
  bytes : entry.bytes = ((item.get "size").bind Value.asU64).getD 0

structure Shows (item member : Value) : Prop where
  path : member.get "path" = item.get "path"
  contentId : member.get "content_id" = item.get "sha"
  bytes : member.get "bytes" =
    some (.number (.posInt (((item.get "size").bind Value.asU64).getD 0)))

/-- The host says the listing is whole, and every blob in it has a path and an identifier. -/
structure Complete (document : Value) (items : List Value) : Prop where
  whole : document.get "truncated" ≠ some (.bool true)
  named : ∀ item ∈ items, item.get "type" = some (.string "blob") →
    ∃ path sha, item.get "path" = some (.string path) ∧ item.get "sha" = some (.string sha)

def blobItems (items : List Value) : List Value := items.filter isBlob

theorem strAt_eq_some_iff {value : Value} {key text : String} :
    value.strAt key = some text ↔ value.get key = some (.string text) := by
  unfold Value.strAt
  cases value.get key with
  | none => simp
  | some member => cases member <;> simp [Value.asStr]

theorem mem_blobItems {items : List Value} {item : Value} :
    item ∈ blobItems items ↔ item ∈ items ∧ item.get "type" = some (.string "blob") := by
  rw [blobItems, List.mem_filter, isBlob, beq_iff_eq, strAt_eq_some_iff]

theorem treeEntry_describes {item : Value} {entry : TreeEntry} :
    treeEntry item = .ok entry ↔ Describes item entry := by
  rw [treeEntry_eq_ok_iff, strAt_eq_some_iff, strAt_eq_some_iff]
  constructor
  · intro h
    exact ⟨h.1, h.2.1, h.2.2.symm⟩
  · intro h
    exact ⟨h.path, h.blobId, h.bytes.symm⟩

theorem Describes.shows {item : Value} {entry : TreeEntry} (h : Describes item entry) :
    Shows item (entryDocument entry) := by
  refine ⟨?_, ?_, ?_⟩
  · exact h.path.symm
  · exact h.blobId.symm
  · rw [← h.bytes]
    rfl

section

variable [SerdeJson] {response : Response} {document : Value} {items : List Value}

theorem listing_describes_iff {authenticated : Bool} {tree : Tree}
    (status : Success response)
    (read : SerdeJson.fromSlice response.body.toList = .ok document)
    (listed : document.get "tree" = some (.array items)) :
    listing (.ok response) authenticated = .ok tree ↔
      document.get "truncated" ≠ some (.bool true) ∧
        List.Forall₂ Describes (blobItems items) tree.entries := by
  have array : (document.get "tree").bind Value.asArray = some items := by
    rw [listed]
    rfl
  simp only [listing_eq_ok_iff, treeEntry_describes, Api.accepted_eq_ok_iff, ne_eq,
    Api.asBool_true_iff]
  constructor
  · intro h
    obtain ⟨response', document', items', ⟨same, -⟩, read', whole, listed', entries⟩ := h
    obtain rfl := Except.ok.inj same
    obtain rfl := Except.ok.inj (read.symm.trans read')
    obtain rfl := Option.some.inj (array.symm.trans listed')
    exact ⟨whole, entries⟩
  · intro h
    exact ⟨response, document, items, ⟨rfl, Api.judge_ok_iff.mpr status⟩, read, h.1, array, h.2⟩

theorem listing_complete_iff {authenticated : Bool}
    (status : Success response)
    (read : SerdeJson.fromSlice response.body.toList = .ok document)
    (listed : document.get "tree" = some (.array items)) :
    (∃ tree, listing (.ok response) authenticated = .ok tree) ↔ Complete document items := by
  constructor
  · intro h
    obtain ⟨tree, success⟩ := h
    obtain ⟨whole, entries⟩ := (listing_describes_iff status read listed).mp success
    refine ⟨whole, fun item hitem blob => ?_⟩
    obtain ⟨entry, -, describes⟩ :=
      Api.exists_of_mem_forall₂ entries.flip (mem_blobItems.mpr ⟨hitem, blob⟩)
    exact ⟨entry.path, entry.blobId, describes.path, describes.blobId⟩
  · intro complete
    let entry (item : Value) : TreeEntry :=
      ⟨(item.strAt "path").getD "", ((item.get "size").bind Value.asU64).getD 0,
        (item.strAt "sha").getD ""⟩
    refine ⟨⟨(blobItems items).map entry⟩, (listing_describes_iff status read listed).mpr
      ⟨complete.whole, ?_⟩⟩
    rw [List.forall₂_map_right_iff, List.forall₂_same]
    intro item hitem
    obtain ⟨mem, blob⟩ := mem_blobItems.mp hitem
    obtain ⟨path, sha, hpath, hsha⟩ := complete.named item mem blob
    have same : entry item = ⟨path, ((item.get "size").bind Value.asU64).getD 0, sha⟩ := by
      simp only [entry, strAt_eq_some_iff.mpr hpath, strAt_eq_some_iff.mpr hsha, Option.getD_some]
    rw [same]
    exact ⟨hpath, hsha, rfl⟩

/-- What an enumerate makes of a listing: all of its files in the host's order, or an error. -/
structure EnumeratesAll (output : Outcome) (document : Value) (items : List Value) : Prop where
  complete : Complete document items → ∃ entries members, output = reply (.enumerate entries) ∧
    List.Forall₂ Describes (blobItems items) entries ∧
    (Reply.enumerate entries).document.get "entries" = some (.array members) ∧
    List.Forall₂ Shows (blobItems items) members
  refused : ¬Complete document items → ∃ code message, output = refuse code message

private theorem enumeratesAll_of_listing {authenticated : Bool} {tree : Tree}
    (status : Success response)
    (read : SerdeJson.fromSlice response.body.toList = .ok document)
    (listed : document.get "tree" = some (.array items))
    (success : listing (.ok response) authenticated = .ok tree) :
    EnumeratesAll (reply (.enumerate tree.entries)) document items := by
  obtain ⟨-, entries⟩ := (listing_describes_iff status read listed).mp success
  refine ⟨fun _ => ⟨tree.entries, tree.entries.map entryDocument, rfl, entries, rfl, ?_⟩, ?_⟩
  · rw [List.forall₂_map_right_iff]
    exact entries.imp fun _ _ describes => describes.shows
  · intro incomplete
    exact absurd ((listing_complete_iff status read listed).mp ⟨tree, success⟩) incomplete

private theorem enumeratesAll_of_failure {authenticated : Bool} {error : Api.ApiError}
    (status : Success response)
    (read : SerdeJson.fromSlice response.body.toList = .ok document)
    (listed : document.get "tree" = some (.array items))
    (failure : listing (.ok response) authenticated = .error error) :
    EnumeratesAll (refuse error.code error.reason) document items := by
  refine ⟨fun complete => ?_, fun _ => ⟨error.code, error.reason, rfl⟩⟩
  obtain ⟨tree, success⟩ := (listing_complete_iff status read listed).mpr complete
  rw [success] at failure
  cases failure

/-- Every answer to a tree request with success status, JSON and a `tree` array is listed
whole or not at all. -/
theorem listing_complete_or_refused [Sha256]
    (status : Success response)
    (read : SerdeJson.fromSlice response.body.toList = .ok document)
    (listed : document.get "tree" = some (.array items)) :
    (∀ locator commit credential result, (enumerateTree locator commit credential).Yields
        [(treeGet locator commit credential, .ok response)] result →
      ((∃ tree, result = .ok tree) ↔ Complete document items) ∧
        ∀ tree, result = .ok tree → List.Forall₂ Describes (blobItems items) tree.entries) ∧
    ∀ (turn : SessionTurn) (request : Value) (get : Get), Session.serving.Takes turn →
      admission turn.before.handshaken turn.input.line = .ok (request, some "enumerate") →
      turn.exchanges = [(get, .ok response)] → EnumeratesAll turn.output document items := by
  constructor
  · intro locator commit credential result yields
    obtain ⟨answer, exchanged, rfl⟩ := Api.enumerateTree_yields.mp yields
    obtain rfl : .ok response = answer := by simpa using exchanged
    refine ⟨listing_complete_iff status read listed, fun tree success => ?_⟩
    exact ((listing_describes_iff status read listed).mp success).2
  · intro turn request get taken admitted asked
    have cases := takes_enumerate taken admitted
    generalize turn.exchanges = exchanges, turn.output = output, turn.after = after
      at cases asked ⊢
    cases cases with
    | notResolved => cases asked
    | failed _ tree =>
        cases tree with
        | failed _ failure =>
            obtain ⟨-, rfl⟩ : _ ∧ _ = Except.ok response := by simpa using asked
            exact enumeratesAll_of_failure status read listed failure
    | listed _ tree =>
        cases tree with
        | held => cases asked
        | listed _ success =>
            obtain ⟨-, rfl⟩ : _ ∧ _ = Except.ok response := by simpa using asked
            exact enumeratesAll_of_listing status read listed success

end

section

attribute [local instance] Json.compact sha2

def mixedItems : List Value := [.object [("type", .string "tree")], itemDocument file]

def mixedDocument : Value := .object [("tree", .array mixedItems), ("truncated", .bool false)]

def mixedBody : Bytes := ⟨written mixedDocument, by decide +kernel⟩

theorem listing_complete_or_refused_mixed :
    (∀ locator commit credential result, (enumerateTree locator commit credential).Yields
        [(treeGet locator commit credential, found mixedBody)] result →
      ((∃ tree, result = .ok tree) ↔ Complete mixedDocument mixedItems) ∧
        ∀ tree, result = .ok tree → List.Forall₂ Describes (blobItems mixedItems) tree.entries) ∧
    ∀ (turn : SessionTurn) (request : Value) (get : Get), Session.serving.Takes turn →
      admission turn.before.handshaken turn.input.line = .ok (request, some "enumerate") →
      turn.exchanges = [(get, found mixedBody)] →
        EnumeratesAll turn.output mixedDocument mixedItems := by
  have plain : Json.Plain mixedDocument := by
    refine plain_object ?_ ?_
    · simp only [List.map_cons, List.map_nil]
      decide +kernel
    · simp [mixedItems, itemDocument_plain, Json.Plain, Json.PlainMembers, Json.PlainItems]
  have read : SerdeJson.fromSlice mixedBody.toList = .ok mixedDocument :=
    Json.compact_fromSlice_toString mixedDocument plain
  exact listing_complete_or_refused ⟨by decide, by decide⟩ read rfl

end

end GitHubProvider.Serve
