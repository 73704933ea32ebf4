/- The requests a caller writes, and how a session reads them. -/

import GitHubProvider.Hash
import GitHubProvider.Serve.Effects

set_option autoImplicit false
set_option relaxedAutoImplicit false

namespace GitHubProvider.Serve

open Api (Tree TreeEntry accepted blobGet commitGet listing namedCommit treeGet)
open Http (Answer Host)
open Interaction (Machine Turn)
open Json (Plain PlainItems PlainMembers SerdeJson Value)
open Locator (GitHubLocator)
open Text (endsIn isWhitespace trim trimText)

theorem trimText_written (members : List (String × Value)) :
    trimText (Json.compact.toString (.object members)) = Json.compact.toString (.object members) ∧
      (Json.compact.toString (.object members)).isEmpty = false := by
  obtain ⟨⟨rest, opens⟩, closes⟩ := Json.write_object_braces members
  have chars : (Json.compact.toString (.object members)).toList = '{' :: rest := by
    rw [← opens]
    show (String.ofList _).toList = _
    exact String.toList_ofList
  have ends : endsIn isWhitespace ('{' :: rest) = false := by
    rw [← opens, endsIn, closes]
    decide
  have same : trim isWhitespace ('{' :: rest ++ []) = '{' :: rest ++ [] :=
    Text.trim_append (x := '{') (by decide) ends
  rw [List.append_nil] at same
  refine ⟨?_, ?_⟩
  · rw [trimText, chars, same, ← chars, String.ofList_toList]
  · have full : Json.compact.toString (.object members) ≠ "" := by
      intro empty
      simp [empty] at chars
    simpa using full

theorem admission_read [SerdeJson] {line : String} {document : Value} {handshaken : Bool}
    (full : (trimText line).isEmpty = false)
    (read : SerdeJson.fromStr (trimText line) = some document)
    (spoken : (document.get "provider_protocol_version").bind Value.asU64 =
      some providerProtocolVersion.toUInt64)
    (ready : document.strAt "request" = some "handshake" ∨ handshaken = true) :
    admission handshaken line = .ok (document, document.strAt "request") := by
  have admitted : ¬ (document.strAt "request" ≠ some "handshake" ∧ ¬ handshaken = true) := by
    rcases ready with handshake | rfl <;> simp [*]
  simp only [admission, full, Bool.false_eq_true, if_false, read, spoken, admitted, if_true]

theorem admission_written {members : List (String × Value)} {handshaken : Bool}
    (plain : Plain (.object members))
    (spoken : ((Value.object members).get "provider_protocol_version").bind Value.asU64 =
      some providerProtocolVersion.toUInt64)
    (ready : (Value.object members).strAt "request" = some "handshake" ∨ handshaken = true) :
    @admission Json.compact handshaken (Json.compact.toString (.object members)) =
      .ok (.object members, (Value.object members).strAt "request") := by
  obtain ⟨trimmed, full⟩ := trimText_written members
  have read : Json.compact.fromStr (Json.compact.toString (.object members)) =
      some (.object members) := Json.compact_fromStr_toString _ plain
  rw [← trimmed] at full read
  exact @admission_read Json.compact _ _ _ full read spoken ready

inductive Call where
  | handshake
  | resolve (locator : String)
  | enumerate (snapshot : String)
  | read (snapshot path : String)
  | materialize (snapshot : String)
  deriving DecidableEq

namespace Call

def kind : Call → String
  | .handshake => "handshake"
  | .resolve _ => "resolve"
  | .enumerate _ => "enumerate"
  | .read _ _ => "read"
  | .materialize _ => "materialize"

def members : Call → List (String × Value)
  | .handshake => [("provider_protocol_version", version), ("request", .string "handshake")]
  | .resolve locator => [
      ("locator", .string locator),
      ("provider_protocol_version", version),
      ("request", .string "resolve")]
  | .enumerate snapshot => [
      ("provider_protocol_version", version),
      ("request", .string "enumerate"),
      ("snapshot", .string snapshot)]
  | .read snapshot path => [
      ("path", .string path),
      ("provider_protocol_version", version),
      ("request", .string "read"),
      ("snapshot", .string snapshot)]
  | .materialize snapshot => [
      ("provider_protocol_version", version),
      ("request", .string "materialize"),
      ("snapshot", .string snapshot)]

def document (call : Call) : Value := .object call.members

def line (call : Call) : String := Json.compact.toString call.document

theorem document_plain (call : Call) : Plain call.document := by
  cases call <;> refine plain_object ?_ ?_ <;> first
    | simp only [members, List.map_cons, List.map_nil]
      decide +kernel
    | simp [members, PlainMembers, Plain, Json.Number.Plain, version]

theorem document_version (call : Call) :
    (call.document.get "provider_protocol_version").bind Value.asU64 =
      some providerProtocolVersion.toUInt64 := by
  cases call <;> rfl

theorem document_strAt_request (call : Call) :
    call.document.strAt "request" = some call.kind := by
  cases call <;> rfl

/-- A line that the JSON library reads as a call. -/
structure Written [SerdeJson] (call : Call) (line : String) : Prop where
  full : (trimText line).isEmpty = false
  read : SerdeJson.fromStr (trimText line) = some call.document

theorem Written.admitted [SerdeJson] {call : Call} {line : String} (written : call.Written line)
    {handshaken : Bool} (ready : call = .handshake ∨ handshaken = true) :
    admission handshaken line = .ok (call.document, some call.kind) := by
  rw [← call.document_strAt_request]
  refine admission_read written.full written.read call.document_version ?_
  rcases ready with rfl | rfl
  · exact .inl (document_strAt_request .handshake)
  · exact .inr rfl

theorem written_line (call : Call) : @Written Json.compact call call.line := by
  obtain ⟨trimmed, full⟩ := trimText_written call.members
  rw [← trimmed] at full
  refine @Written.mk Json.compact _ _ full ?_
  exact (congrArg Json.compact.fromStr trimmed).trans
    (Json.compact_fromStr_toString _ call.document_plain)

theorem admission_line (call : Call) {handshaken : Bool}
    (ready : call = .handshake ∨ handshaken = true) :
    @admission Json.compact handshaken call.line = .ok (call.document, some call.kind) :=
  @Written.admitted Json.compact _ _ call.written_line _ ready

def request (call : Call) (credential : Option String) : Request := ⟨call.line, credential⟩

end Call

def found (body : Bytes) : Answer := .ok ⟨200, ∅, body⟩

def written (document : Value) : List UInt8 := Text.encode (Json.compact.toString document)

def commitDocument (commit : String) : Value := .object [("sha", .string commit)]

def itemDocument (entry : TreeEntry) : Value :=
  .object [("path", .string entry.path), ("sha", .string entry.blobId),
    ("size", .number (.posInt entry.bytes)), ("type", .string "blob")]

def treeDocument (tree : Tree) : Value := .object [("tree", .array (tree.entries.map itemDocument))]

theorem accepted_found (body : Bytes) (authenticated : Bool) :
    accepted (found body) authenticated = .ok ⟨200, ∅, body⟩ := rfl

private theorem bodyJson_written {document : Value} {body : Bytes} (plain : Plain document)
    (hbody : body.toList = written document) :
    @Api.bodyJson Json.compact ⟨200, ∅, body⟩ = .ok document := by
  simp only [Api.bodyJson, hbody, written, Json.compact_fromSlice_toString document plain]
  rfl

theorem namedCommit_written {commit : String} {body : Bytes}
    (hbody : body.toList = written (commitDocument commit)) (hcommit : commit ≠ "")
    (authenticated : Bool) :
    @namedCommit Json.compact (found body) authenticated = .ok commit := by
  have plain : Plain (commitDocument commit) := by
    simp [commitDocument, Plain, PlainMembers]
  have named : ((commitDocument commit).strAt "sha").filter (fun sha => !sha.isEmpty) =
      some commit := by
    simp [commitDocument, Value.strAt, Value.get, Value.asStr, hcommit]
  simp only [namedCommit, accepted_found, bind, Except.bind, bodyJson_written plain hbody, named]
  rfl

theorem itemDocument_plain (entry : TreeEntry) : Plain (itemDocument entry) := by
  refine plain_object ?_ ?_
  · simp only [List.map_cons, List.map_nil]
    decide +kernel
  · simp [PlainMembers, Plain, Json.Number.Plain]

private theorem itemDocuments_plain (entries : List TreeEntry) :
    PlainItems (entries.map itemDocument) := by
  induction entries with
  | nil => simp [PlainItems]
  | cons entry entries ih => exact ⟨itemDocument_plain entry, ih⟩

private theorem mapM_itemDocument (entries : List TreeEntry) :
    ((entries.map itemDocument).filter Api.isBlob).mapM Api.treeEntry = .ok entries := by
  induction entries with
  | nil => rfl
  | cons entry entries ih =>
      have blob : Api.isBlob (itemDocument entry) = true := rfl
      have read : Api.treeEntry (itemDocument entry) = .ok entry := rfl
      rw [List.map_cons, List.filter_cons_of_pos blob, List.mapM_cons, read, ih]
      rfl

theorem listing_written {tree : Tree} {body : Bytes}
    (hbody : body.toList = written (treeDocument tree)) (authenticated : Bool) :
    @listing Json.compact (found body) authenticated = .ok tree := by
  have plain : Plain (treeDocument tree) := by
    simp [treeDocument, Plain, PlainMembers, itemDocuments_plain]
  have complete : (treeDocument tree).get "truncated" = none := rfl
  have items : ((treeDocument tree).get "tree").bind Value.asArray =
      some (tree.entries.map itemDocument) := rfl
  simp only [listing, accepted_found, bind, Except.bind, bodyJson_written plain hbody, complete,
    Option.bind_none, reduceCtorEq, if_false, items, mapM_itemDocument]
  rfl

abbrev sha2 : Sha256 where
  finalize := Hash.sha256

attribute [local instance] Json.compact sha2

section

variable (session : Session) (credential : Option String)

def handshakeTurn : SessionTurn :=
  ⟨session, Call.handshake.request credential, reply .handshake, [],
    { session with handshaken := true }⟩

def resolveTurn (text commit : String) (locator : GitHubLocator) (answer : Answer) :
    SessionTurn :=
  ⟨session, (Call.resolve text).request credential, reply (.resolve commit locator.toString),
    [(commitGet locator credential, answer)], session.hold commit locator⟩

def enumerateTurn (snapshot : String) (locator : GitHubLocator) (tree : Tree) (answer : Answer) :
    SessionTurn :=
  ⟨session, (Call.enumerate snapshot).request credential, reply (.enumerate tree.entries),
    [(treeGet locator snapshot credential, answer)], session.keep snapshot tree⟩

def readTurn (snapshot : String) (locator : GitHubLocator) (entry : TreeEntry) (body : Bytes) :
    SessionTurn :=
  ⟨session, (Call.read snapshot entry.path).request credential, replyWith (.read body.len) body,
    [(blobGet locator entry.blobId credential, found body)], session⟩

def materializeTurn (snapshot : String) (locator : GitHubLocator) (answer : Answer)
    (entry : TreeEntry) (body : Bytes) : SessionTurn :=
  ⟨session, (Call.materialize snapshot).request credential,
    replyWith (.materialize body.len (digest body.toList)) body,
    [(treeGet locator snapshot credential, answer),
      (blobGet locator entry.blobId credential, found body)], session⟩

theorem takes_handshakeTurn : Session.serving.Takes (handshakeTurn session credential) :=
  Session.handle_yields_iff.mpr (.handshake (Call.handshake.admission_line (.inl rfl)))

variable {session credential}

theorem takes_resolveTurn {text commit : String} {locator : GitHubLocator} {answer : Answer}
    (ready : session.handshaken = true) (parsed : GitHubLocator.parse text = .ok locator)
    (named : namedCommit answer credential.isSome = .ok commit) :
    Session.serving.Takes (resolveTurn session credential text commit locator answer) :=
  Session.handle_yields_iff.mpr (.resolve ((Call.resolve text).admission_line (.inr ready))
    (.resolved rfl rfl parsed named))

theorem takes_enumerateTurn {snapshot : String} {locator : GitHubLocator} {tree : Tree}
    {answer : Answer} (ready : session.handshaken = true)
    (held : session.resolved.lookup snapshot = some locator)
    (absent : session.trees.lookup snapshot = none)
    (listed : listing answer credential.isSome = .ok tree) :
    Session.serving.Takes (enumerateTurn session credential snapshot locator tree answer) :=
  Session.handle_yields_iff.mpr (.enumerate
    ((Call.enumerate snapshot).admission_line (.inr ready))
    (.listed (Session.snapshot_eq_some_iff.mpr ⟨rfl, held⟩) (.listed absent listed)))

theorem takes_readTurn {snapshot : String} {locator : GitHubLocator} {tree : Tree}
    {entry : TreeEntry} {body : Bytes} (ready : session.handshaken = true)
    (held : session.resolved.lookup snapshot = some locator)
    (kept : session.trees.lookup snapshot = some tree)
    (listed : (tree.entries.find? fun e => e.path = entry.path) = some entry) :
    Session.serving.Takes (readTurn session credential snapshot locator entry body) := by
  have cases : session.ReadCase (Call.read snapshot entry.path).document credential
      ([] ++ [(blobGet locator entry.blobId credential, found body)])
      (replyWith (.read body.len) body) session :=
    @Session.ReadCase.answered _ _ _ _ snapshot entry.path locator [] tree session entry
      (found body) ⟨200, ∅, body⟩ (Session.snapshot_eq_some_iff.mpr ⟨rfl, held⟩) rfl (.held kept)
      listed (accepted_found body credential.isSome)
  exact Session.handle_yields_iff.mpr (.read
    ((Call.read snapshot entry.path).admission_line (.inr ready)) cases)

theorem takes_materializeTurn {snapshot : String} {locator : GitHubLocator} {tree : Tree}
    {answer : Answer} {entry : TreeEntry} {body : Bytes} (ready : session.handshaken = true)
    (held : session.resolved.lookup snapshot = some locator) (file : locator.isRoot = false)
    (listed : listing answer credential.isSome = .ok tree)
    (named : (tree.entries.find? fun e => e.path = locator.path) = some entry) :
    Session.serving.Takes
      (materializeTurn session credential snapshot locator answer entry body) := by
  have cases : session.MaterializeCase (Call.materialize snapshot).document credential
      [(treeGet locator snapshot credential, answer),
        (blobGet locator entry.blobId credential, found body)]
      (replyWith (.materialize body.len (digest body.toList)) body) :=
    @Session.MaterializeCase.answered _ _ _ _ _ snapshot locator answer tree entry (found body)
      ⟨200, ∅, body⟩ (Session.snapshot_eq_some_iff.mpr ⟨rfl, held⟩) file listed named
      (accepted_found body credential.isSome)
  exact Session.handle_yields_iff.mpr (.materialize
    ((Call.materialize snapshot).admission_line (.inr ready)) cases)

end

def recorded : Host (List Answer) := Interaction.replay (.error "no answer was recorded")

/-- The history of the turns' request lines before a host that repeats the answers
recorded in them. -/
abbrev replayed (turns : List SessionTurn) : List SessionTurn :=
  history recorded ((turns.flatMap Turn.exchanges).map Prod.snd) (turns.map Turn.input)

theorem replayed_eq {turns : List SessionTurn} {final : Session}
    (h : Session.serving.Chain .new turns final) : replayed turns = turns :=
  Machine.turns_of_chain h (Interaction.Program.answers_replay _ _)

/-- A file of a repository, and the same file of a fork that is at the same commit. -/
def parent : GitHubLocator := ⟨"o", "r", "a", "m"⟩

def fork : GitHubLocator := ⟨"f", "r", "a", "m"⟩

def file : TreeEntry := ⟨"a", 1, "b"⟩

def fileBody : Bytes := ⟨[120], by decide⟩

def commitBody : Bytes := ⟨written (commitDocument "c"), by decide +kernel⟩

def treeBody : Bytes := ⟨written (treeDocument ⟨[file]⟩), by decide +kernel⟩

def opening : SessionTurn := handshakeTurn .new none

def resolving : SessionTurn :=
  resolveTurn opening.after none "github://o/r/a?ref=m" "c" parent (found commitBody)

def enumerating : SessionTurn :=
  enumerateTurn resolving.after none "c" parent ⟨[file]⟩ (found treeBody)

def reading : SessionTurn := readTurn enumerating.after none "c" parent file fileBody

def materializing : SessionTurn :=
  materializeTurn reading.after none "c" parent (found treeBody) file fileBody

def forking : SessionTurn :=
  resolveTurn enumerating.after none "github://f/r/a?ref=m" "c" fork (found commitBody)

def forkReading : SessionTurn := readTurn forking.after none "c" fork file fileBody

def ordinary : List SessionTurn := [opening, resolving, enumerating, reading, materializing]

def forked : List SessionTurn := [opening, resolving, enumerating, forking, forkReading]

private theorem commitBody_toList : commitBody.toList = written (commitDocument "c") := by
  rw [commitBody]

theorem names_commit : namedCommit (found commitBody) false = .ok "c" :=
  namedCommit_written commitBody_toList (by simp) false

theorem lists_file : listing (found treeBody) false = .ok ⟨[file]⟩ :=
  listing_written rfl false

private theorem takes_resolving : Session.serving.Takes resolving :=
  takes_resolveTurn rfl (by decide) names_commit

private theorem takes_enumerating : Session.serving.Takes enumerating :=
  takes_enumerateTurn rfl rfl rfl lists_file

private theorem takes_reading : Session.serving.Takes reading :=
  takes_readTurn rfl rfl rfl rfl

private theorem takes_materializing : Session.serving.Takes materializing :=
  takes_materializeTurn rfl rfl rfl lists_file rfl

private theorem takes_forking : Session.serving.Takes forking :=
  takes_resolveTurn rfl (by decide) names_commit

private theorem takes_forkReading : Session.serving.Takes forkReading :=
  takes_readTurn rfl rfl rfl rfl

theorem ordinary_chain : Session.serving.Chain .new ordinary materializing.after := by
  apply Machine.Chain.cons (takes_handshakeTurn .new none)
  apply Machine.Chain.cons takes_resolving
  apply Machine.Chain.cons takes_enumerating
  apply Machine.Chain.cons takes_reading
  apply Machine.Chain.cons takes_materializing
  exact .nil _

theorem forked_chain : Session.serving.Chain .new forked forkReading.after := by
  apply Machine.Chain.cons (takes_handshakeTurn .new none)
  apply Machine.Chain.cons takes_resolving
  apply Machine.Chain.cons takes_enumerating
  apply Machine.Chain.cons takes_forking
  apply Machine.Chain.cons takes_forkReading
  exact .nil _

end GitHubProvider.Serve
