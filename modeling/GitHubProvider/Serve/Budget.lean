/- How many GETs a run makes. -/

import GitHubProvider.Serve.Calls
import GitHubProvider.Serve.Endings
import GitHubProvider.Serve.History
import Mathlib.Data.List.Dedup

set_option autoImplicit false
set_option relaxedAutoImplicit false

namespace GitHubProvider.Serve

open Api (ApiError Tree)
open Interaction (Turn)
open Json (SerdeJson Value)
open Locator (GitHubLocator)

section

variable [SerdeJson]

/-- What a request may cost, listings of a snapshot apart. -/
def allowance (turn : SessionTurn) : Nat :=
  match kindOf turn.before turn.input.line with
  | some "resolve" => 1
  | some "enumerate" => if unfailed turn then 0 else 1
  | some "read" => 1
  | some "materialize" => 2
  | _ => 0

def listingOf (turn : SessionTurn) : Option String :=
  match admission turn.before.handshaken turn.input.line with
  | .ok (document, some kind) =>
      if kind ∈ ["enumerate", "read"] then document.strAt "snapshot" else none
  | _ => none

section

variable {session after : Session} {snapshot : String} {locator : GitHubLocator} {tree : Tree}
  {request : Request} {document : Value} {credential : Option String} {exchanges : Exchanges}
  {output : Outcome}

def listings (session : Session) : Nat := session.trees.keys.length

omit [SerdeJson] in
theorem listings_keep (absent : session.trees.lookup snapshot = none) :
    listings (session.keep snapshot tree) = listings session + 1 := by
  have fresh : snapshot ∉ session.trees.keys := AList.lookup_eq_none.mp absent
  rw [listings, listings, Session.keep_trees, AList.keys_insert, List.erase_of_not_mem fresh,
    List.length_cons]

theorem treeCase_listed
    (h : session.TreeCase locator snapshot credential exchanges (.ok tree) after) :
    exchanges.length + listings session = listings after := by
  cases h with
  | held => simp
  | listed absent =>
      rw [listings_keep absent, List.length_singleton]
      omega

theorem treeCase_failed {error : ApiError}
    (h : session.TreeCase locator snapshot credential exchanges (.error error) after) :
    exchanges.length = 1 ∧ listings after = listings session := by
  cases h with
  | failed => exact ⟨rfl, rfl⟩

theorem resolve_cost (h : session.ResolveCase document credential exchanges output after) :
    exchanges.length + listings session ≤ 1 + listings after := by
  cases h <;> simp [listings]

theorem enumerate_cost {allowed : Nat}
    (admitted : admission session.handshaken request.line = .ok (document, some "enumerate"))
    (fails : ¬(∀ e ∈ exchanges, verdict session request e = .ok ()) → 1 ≤ allowed)
    (h : session.EnumerateCase document request.credential exchanges output after) :
    exchanges.length + listings session ≤ allowed + listings after := by
  cases h with
  | notResolved =>
      rw [List.length_nil]
      omega
  | failed _ tree =>
      have short := fails fun good =>
        treeCase_unfailed admitted (by simp [snapshotKinds]) good tree
      obtain ⟨one, same⟩ := treeCase_failed tree
      omega
  | listed _ tree =>
      have paid := treeCase_listed tree
      omega

theorem read_cost (h : session.ReadCase document credential exchanges output after) :
    exchanges.length + listings session ≤ 1 + listings after := by
  cases h with
  | notResolved | unnamed =>
      rw [List.length_nil]
      omega
  | failed _ _ tree =>
      obtain ⟨one, same⟩ := treeCase_failed tree
      omega
  | absent _ _ tree =>
      have paid := treeCase_listed tree
      omega
  | refused _ _ tree | answered _ _ tree =>
      have paid := treeCase_listed tree
      rw [List.length_append, List.length_singleton]
      omega

theorem materialize_cost [Sha256]
    (h : session.MaterializeCase document credential exchanges output) :
    exchanges.length + listings session ≤ 2 + listings session := by
  cases h <;> simp

end

variable [Sha256]

/-- What a turn asks is paid for by its allowance, but for a listing that the session keeps. -/
theorem takes_cost {turn : SessionTurn} (h : Session.serving.Takes turn) :
    turn.exchanges.length + listings turn.before ≤ allowance turn + listings turn.after := by
  have cases := takes_cases h
  obtain ⟨before, request, output, exchanges, after⟩ := turn
  dsimp only at cases ⊢
  cases cases with
  | refused | handshake | undefined | unnamed =>
      rw [List.length_nil, Nat.zero_add]
      exact Nat.le_add_left _ _
  | resolve admitted cases =>
      simp only [allowance, kindOf_admitted admitted]
      exact resolve_cost cases
  | enumerate admitted cases =>
      simp only [allowance, kindOf_admitted admitted]
      refine enumerate_cost admitted (fun fails => ?_) cases
      rw [if_neg (mt unfailed_iff.mp fails)]
  | read admitted cases =>
      simp only [allowance, kindOf_admitted admitted]
      exact read_cost cases
  | materialize admitted cases =>
      simp only [allowance, kindOf_admitted admitted]
      exact materialize_cost cases

theorem chain_keys {history : List SessionTurn} {final : Session}
    (h : Session.serving.Chain .new history final) :
    final.trees.keys ⊆ history.filterMap listingOf := by
  intro snapshot mem
  have kept : final.trees.lookup snapshot ≠ none := fun absent =>
    AList.lookup_eq_none.mp absent mem
  obtain ⟨tree, kept⟩ := Option.ne_none_iff_exists'.mp kept
  obtain ⟨locator, turn, hturn, answer, lists⟩ := ((chain_recorded h).trees snapshot tree).mp kept
  obtain ⟨document, kind, admitted, hkind, named⟩ := lists.admitted
  refine List.mem_filterMap.mpr ⟨turn, hturn, ?_⟩
  simp only [listingOf, admitted, if_pos hkind]
  exact (Session.snapshot_eq_some_iff.mp named).1

/-- Whatever the host answers: a run makes no more GETs than its requests are allowed, and
one for each snapshot that is enumerated or read. -/
theorem run_within_budget {history : List SessionTurn} {final : Session}
    (h : Session.serving.Chain .new history final) :
    (history.flatMap Turn.exchanges).length ≤
      (history.map allowance).sum + (history.filterMap listingOf).dedup.length := by
  have paid := h.amortized listings (fun turn => turn.exchanges.length) allowance fun turn taken =>
    takes_cost taken
  have start : listings .new = 0 := rfl
  have distinct : listings final ≤ (history.filterMap listingOf).dedup.length := by
    have keys : final.trees.keys ⊆ (history.filterMap listingOf).dedup := fun snapshot mem =>
      List.mem_dedup.mpr (chain_keys h mem)
    exact (final.trees.keys_nodup.subperm keys).length_le
  rw [List.length_flatMap]
  omega

end

section

attribute [local instance] Json.compact sha2

theorem run_within_budget_ordinary :
    (ordinary.flatMap Turn.exchanges).length ≤
      (ordinary.map allowance).sum + (ordinary.filterMap listingOf).dedup.length :=
  run_within_budget ordinary_chain

end

end GitHubProvider.Serve
