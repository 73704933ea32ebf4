/- What can be told from a reply line. -/

import GitHubProvider.Json.Compact
import GitHubProvider.Serve

set_option autoImplicit false
set_option relaxedAutoImplicit false

namespace GitHubProvider.Serve

open Api (TreeEntry)
open Json (Plain PlainItems SerdeJson Value)

private theorem entryDocument_injective : Function.Injective entryDocument := by
  intro a b h
  cases a
  cases b
  simp only [entryDocument, Value.object.injEq, List.cons.injEq, Prod.mk.injEq, true_and,
    Value.number.injEq, Json.Number.posInt.injEq, Value.string.injEq] at h
  obtain ⟨rfl, rfl, rfl, -⟩ := h
  rfl

theorem Reply.document_injective : Function.Injective Reply.document := by
  intro a b h
  cases a <;> cases b <;>
    simp [Reply.document, List.map_inj_right entryDocument_injective,
      ProviderCode.asStr_injective.eq_iff] at h ⊢ <;>
    simp_all

/-- What is relied on of the JSON library: a reply is written as one line, and
reading the line gives the document back. -/
structure Faithful [SerdeJson] : Prop where
  newline_free (answer : Reply) : '\n' ∉ (SerdeJson.toString answer.document).toList
  round_trip (answer : Reply) :
    SerdeJson.fromStr (SerdeJson.toString answer.document) = some answer.document

section

variable [SerdeJson]

theorem Faithful.toString_inj (serde : Faithful) {first second : Reply} :
    SerdeJson.toString first.document = SerdeJson.toString second.document ↔ first = second := by
  constructor
  · intro h
    have documents : some first.document = some second.document := by
      rw [← serde.round_trip first, h, serde.round_trip second]
    exact Reply.document_injective (Option.some.inj documents)
  · rintro rfl
    rfl

theorem Faithful.replyWith_inj (serde : Faithful) {first second : Reply}
    {content content' : Bytes} :
    replyWith first content = replyWith second content' ↔ first = second ∧ content = content' := by
  simp only [replyWith, Outcome.reply.injEq, serde.toString_inj]

end

theorem plain_object {members : List (String × Value)}
    (sorted : (members.map Prod.fst).Pairwise (· < ·)) (plain : Json.PlainMembers members) :
    Plain (.object members) := by
  rw [Plain]
  exact ⟨List.pairwise_map.mp sorted, plain⟩

private theorem entryDocuments_plain (entries : List TreeEntry) :
    PlainItems (entries.map entryDocument) := by
  induction entries with
  | nil => simp [PlainItems]
  | cons entry entries ih =>
      refine ⟨plain_object ?_ ?_, ih⟩
      · simp only [List.map_cons, List.map_nil]
        decide +kernel
      · simp [Json.PlainMembers, Plain, Json.Number.Plain]

theorem Reply.document_plain (answer : Reply) : Plain answer.document := by
  cases answer <;> refine plain_object ?_ ?_ <;> first
    | simp only [List.map_cons, List.map_nil]
      decide +kernel
    | simp [Json.PlainMembers, Plain, PlainItems, Json.Number.Plain, version, entryDocuments_plain]

theorem faithful_compact : @Faithful Json.compact :=
  @Faithful.mk Json.compact
    (fun answer => Json.newline_not_mem_compact_toString _ answer.document_plain)
    (fun answer => Json.compact_fromStr_toString _ answer.document_plain)

end GitHubProvider.Serve
