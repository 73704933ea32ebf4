/- What of a request line is looked at. -/

import GitHubProvider.Main.Process

set_option autoImplicit false
set_option relaxedAutoImplicit false

namespace GitHubProvider.Main

open Json (SerdeJson Value)
open Locator (GitHubLocator)
open Serve (Session Sha256 admission refuse)
open Text (trimText)

/-- The requests ask for the same. Of a locator only what it is read as matters, and of a
credential only what `carriesSecret` says of it. -/
structure SameMembers (request request' : Value) : Prop where
  version : (request.get "provider_protocol_version").bind Value.asU64 =
    (request'.get "provider_protocol_version").bind Value.asU64
  kind : request.strAt "request" = request'.strAt "request"
  locator : (request.strAt "locator").map GitHubLocator.parse =
    (request'.strAt "locator").map GitHubLocator.parse
  credential : Session.carriesSecret request = Session.carriesSecret request'
  snapshot : request.strAt "snapshot" = request'.strAt "snapshot"
  path : request.strAt "path" = request'.strAt "path"

section

variable [SerdeJson]

inductive SameLine : Option String → Option String → Prop
  | unreadable : SameLine none none
  | blank {line line' : String} : (trimText line).isEmpty = true →
      (trimText line').isEmpty = true → SameLine (some line) (some line')
  | malformed {line line' : String} : (trimText line).isEmpty = false →
      (trimText line').isEmpty = false → SerdeJson.fromStr (trimText line) = none →
      SerdeJson.fromStr (trimText line') = none → SameLine (some line) (some line')
  | request {line line' : String} {request request' : Value} :
      (trimText line).isEmpty = false → (trimText line').isEmpty = false →
      SerdeJson.fromStr (trimText line) = some request →
      SerdeJson.fromStr (trimText line') = some request' → SameMembers request request' →
      SameLine (some line) (some line')

private theorem admission_same {handshaken : Bool} {line line' : String}
    (h : SameLine (some line) (some line')) :
    (∃ outcome, admission handshaken line = .error outcome ∧
      admission handshaken line' = .error outcome) ∨
    ∃ request request' kind, admission handshaken line = .ok (request, kind) ∧
      admission handshaken line' = .ok (request', kind) ∧ SameMembers request request' := by
  cases h with
  | blank blank blank' =>
      left
      exact ⟨.done, by rw [admission, if_pos blank], by rw [admission, if_pos blank']⟩
  | malformed full full' unread unread' =>
      left
      refine ⟨refuse .requestInvalid "the request is not JSON", ?_, ?_⟩
      · simp only [admission, full, Bool.false_eq_true, if_false, unread]
      · simp only [admission, full', Bool.false_eq_true, if_false, unread']
  | @request _ _ request request' full full' read read' same =>
      simp only [admission, full, full', Bool.false_eq_true, if_false, read, read', same.version,
        same.kind]
      cases (request'.get "provider_protocol_version").bind Value.asU64 with
      | none => exact .inl ⟨_, rfl, rfl⟩
      | some found =>
          dsimp only
          split
          · split
            · exact .inl ⟨_, rfl, rfl⟩
            · exact .inr ⟨_, _, _, rfl, rfl, same⟩
          · exact .inl ⟨_, rfl, rfl⟩

section

variable {request request' : Value} (same : SameMembers request request')
include same

private theorem resolve_same (session : Session) (credential : Option String) :
    session.resolve request credential = session.resolve request' credential := by
  have locator := same.locator
  rw [Session.resolve, Session.resolve, same.credential]
  generalize request.strAt "locator" = named, request'.strAt "locator" = named' at locator
  cases named with
  | none =>
      cases named' with
      | none => rfl
      | some text' => cases locator
  | some text =>
      cases named' with
      | none => cases locator
      | some text' =>
          have parsed : GitHubLocator.parse text = GitHubLocator.parse text' :=
            Option.some.inj locator
          simp only [parsed]

omit [SerdeJson] in
private theorem snapshot_same (session : Session) :
    session.snapshot request = session.snapshot request' := by
  simp only [Session.snapshot, same.snapshot]

private theorem enumerate_same (session : Session) (credential : Option String) :
    session.enumerate request credential = session.enumerate request' credential := by
  simp only [Session.enumerate, snapshot_same same session]

private theorem read_same (session : Session) (credential : Option String) :
    session.read request credential = session.read request' credential := by
  simp only [Session.read, snapshot_same same session, same.path]

private theorem materialize_same [Sha256] (session : Session) (credential : Option String) :
    session.materialize request credential = session.materialize request' credential := by
  simp only [Session.materialize, snapshot_same same session]

end

variable [Sha256]

theorem handle_same {line line' : String} (h : SameLine (some line) (some line'))
    (session : Session) (credential : Option String) :
    session.handle line credential = session.handle line' credential := by
  rcases admission_same h with ⟨outcome, refused, refused'⟩ |
    ⟨request, request', kind, admitted, admitted', same⟩
  · rw [Session.handle, Session.handle, refused, refused']
  · rw [Session.handle, Session.handle, admitted, admitted']
    dsimp only
    split
    · rfl
    · exact resolve_same same session credential
    · exact enumerate_same same session credential
    · exact read_same same session credential
    · exact materialize_same same session credential
    · rfl
    · rfl

/-- For two streams that ask for the same line by line the process is one and the same program:
it writes the same, ends the same way and asks the same of every host. -/
theorem main_same (token : Option String) {lines lines' : List (Option String)}
    (h : List.Forall₂ SameLine lines lines') : main token lines = main token lines' := by
  have loop (credential : Option String) (session : Session) :
      answer credential session lines = answer credential session lines' := by
    induction h generalizing session with
    | nil => rfl
    | cons first _ ih =>
        cases first with
        | unreadable => rfl
        | blank blank blank' =>
            rw [answer, answer, handle_same (.blank blank blank')]
            simp only [ih]
        | malformed full full' unread unread' =>
            rw [answer, answer, handle_same (.malformed full full' unread unread')]
            simp only [ih]
        | request full full' read read' same =>
            rw [answer, answer, handle_same (.request full full' read read' same)]
            simp only [ih]
  exact loop (credential token) .new

end

section

attribute [local instance] Json.compact Serve.sha2

def resolveMembers : List (String × Value) := (Serve.Call.resolve "github://o/r/a?ref=m").members

/-- The same resolve with its locator as a browser shows it, a credential that is named, and a
member that this version does not define. -/
def annotatedMembers : List (String × Value) :=
  [("credential", .object [("ref", .string "work")]),
    ("locator", .string "https://github.com/O/R/blob/m/a/?plain=1#L3"),
    ("note", .string "n"),
    ("provider_protocol_version", Serve.version),
    ("request", .string "resolve")]

private theorem annotatedMembers_plain : Json.Plain (.object annotatedMembers) := by
  refine Serve.plain_object ?_ ?_
  · simp only [annotatedMembers, List.map_cons, List.map_nil]
    decide +kernel
  · simp [annotatedMembers, Json.PlainMembers, Json.Plain, Json.Number.Plain, Serve.version]

private theorem annotatedMembers_same :
    SameMembers (.object resolveMembers) (.object annotatedMembers) where
  version := rfl
  kind := rfl
  locator := congrArg some (by decide)
  credential := rfl
  snapshot := rfl
  path := rfl

private theorem sameLine_written {members members' : List (String × Value)}
    (plain : Json.Plain (.object members)) (plain' : Json.Plain (.object members'))
    (same : SameMembers (.object members) (.object members')) :
    SameLine (some (Json.compact.toString (.object members)))
      (some (Json.compact.toString (.object members'))) := by
  obtain ⟨trimmed, full⟩ := Serve.trimText_written members
  obtain ⟨trimmed', full'⟩ := Serve.trimText_written members'
  refine .request (trimmed.symm ▸ full) (trimmed'.symm ▸ full') ?_ ?_ same
  · rw [trimmed]
    exact Json.compact_fromStr_toString _ plain
  · rw [trimmed']
    exact Json.compact_fromStr_toString _ plain'

theorem main_same_annotated :
    main none [some Serve.Call.handshake.line,
        some (Json.compact.toString (.object resolveMembers))] =
      main none [some Serve.Call.handshake.line,
        some (Json.compact.toString (.object annotatedMembers))] := by
  have handshake := Serve.Call.document_plain .handshake
  have resolve := Serve.Call.document_plain (.resolve "github://o/r/a?ref=m")
  exact main_same none
    (.cons (sameLine_written handshake handshake ⟨rfl, rfl, rfl, rfl, rfl, rfl⟩)
      (.cons (sameLine_written resolve annotatedMembers_plain annotatedMembers_same) .nil))

end

end GitHubProvider.Main
