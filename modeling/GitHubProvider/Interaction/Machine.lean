/- Machines that answer each input by a program, and the histories of their runs. -/

import GitHubProvider.Interaction.Program
import Mathlib.Algebra.GroupWithZero.Nat
import Mathlib.Data.List.Induction

/-!
A machine keeps a state and answers every input by a program. The history of a
run is the list of its turns, oldest first, each with the exchanges made in it.
`Chain` is the history seen from outside, for any answers whatever; an invariant
of a run may speak of the whole history that led to the state.
-/

set_option autoImplicit false
set_option relaxedAutoImplicit false

namespace GitHubProvider.Interaction

/-- A machine reads an input in a state and ends in an output and the next state. -/
abbrev Machine (σ ι ο Q A : Type) := σ → ι → Program Q A (ο × σ)

structure Turn (σ ι ο Q A : Type) where
  before : σ
  input : ι
  output : ο
  exchanges : List (Q × A)
  after : σ

variable {σ ι ο Q A Q' A' W : Type}

namespace Machine

def turns (machine : Machine σ ι ο Q A) (environment : Environment W Q A) :
    W → σ → List ι → List (Turn σ ι ο Q A)
  | _, _, [] => []
  | world, state, input :: inputs =>
      let played := (machine state input).run environment world
      ⟨state, input, played.result.1, played.exchanges, played.result.2⟩ ::
        turns machine environment played.world played.result.2 inputs

@[simp] theorem map_input_turns (machine : Machine σ ι ο Q A) (environment : Environment W Q A)
    (world : W) (state : σ) (inputs : List ι) :
    (machine.turns environment world state inputs).map Turn.input = inputs := by
  induction inputs generalizing world state with
  | nil => rfl
  | cons input inputs ih => simp only [turns, List.map_cons, ih]

theorem turns_append (machine : Machine σ ι ο Q A) (environment : Environment W Q A)
    (world : W) (state : σ) (inputs more : List ι) :
    ∃ later reached, machine.turns environment world state (inputs ++ more) =
      machine.turns environment world state inputs ++
        machine.turns environment later reached more := by
  induction inputs generalizing world state with
  | nil => exact ⟨world, state, rfl⟩
  | cons input inputs ih =>
      obtain ⟨later, reached, rest⟩ := ih ((machine state input).run environment world).world
        ((machine state input).run environment world).result.2
      exact ⟨later, reached, by simp only [List.cons_append, turns, rest]⟩

/-- The turn is one this machine can take, for some answers to its questions. -/
def Takes (machine : Machine σ ι ο Q A) (turn : Turn σ ι ο Q A) : Prop :=
  (machine turn.before turn.input).Yields turn.exchanges (turn.output, turn.after)

theorem takes_run (machine : Machine σ ι ο Q A) (environment : Environment W Q A) (world : W)
    (state : σ) (input : ι) :
    machine.Takes ⟨state, input, ((machine state input).run environment world).result.1,
      ((machine state input).run environment world).exchanges,
      ((machine state input).run environment world).result.2⟩ :=
  (machine state input).run_yields environment world

theorem turns_answered (machine : Machine σ ι ο Q A) (environment : Environment W Q A) (world : W)
    (state : σ) (inputs : List ι) :
    ∀ turn ∈ machine.turns environment world state inputs, ∀ e ∈ turn.exchanges,
      ∃ world', e.2 = (environment world' e.1).1 := by
  induction inputs generalizing world state with
  | nil => simp [turns]
  | cons input inputs ih =>
      intro turn hturn
      rcases List.mem_cons.mp hturn with rfl | later
      · exact (machine state input).run_answered environment world
      · exact ih _ _ turn later

def interpret (machine : Machine σ ι ο Q A) (handler : Q → Program Q' A' A) :
    Machine σ ι ο Q' A' :=
  fun state input => (machine state input).interpret handler

/-- Behind a handler that turns each question into one question, the turns are those
of the machine itself, with every exchange seen through the handler. -/
theorem takes_interpret {f : Q → Q'} {g : A' → A} {machine : Machine σ ι ο Q A}
    {turn : Turn σ ι ο Q' A'} :
    (machine.interpret fun question =>
        .query (f question) >>= fun answer => pure (g answer)).Takes turn ↔
      ∃ inner, machine.Takes ⟨turn.before, turn.input, turn.output, inner, turn.after⟩ ∧
        List.Forall₂ (fun i o => o.1 = f i.1 ∧ i.2 = g o.2) inner turn.exchanges :=
  Program.yields_interpret f g

/-- Consecutive turns of the machine from one state to another. -/
inductive Chain (machine : Machine σ ι ο Q A) : σ → List (Turn σ ι ο Q A) → σ → Prop
  | nil (state : σ) : Chain machine state [] state
  | cons {turn : Turn σ ι ο Q A} {rest : List (Turn σ ι ο Q A)} {final : σ} :
      machine.Takes turn → Chain machine turn.after rest final →
      Chain machine turn.before (turn :: rest) final

variable {machine : Machine σ ι ο Q A}

theorem chain_turns (machine : Machine σ ι ο Q A) (environment : Environment W Q A)
    (world : W) (state : σ) (inputs : List ι) :
    ∃ final, machine.Chain state (machine.turns environment world state inputs) final := by
  induction inputs generalizing world state with
  | nil => exact ⟨state, .nil state⟩
  | cons input inputs ih =>
      obtain ⟨final, hrest⟩ := ih ((machine state input).run environment world).world
        ((machine state input).run environment world).result.2
      have taken := machine.takes_run environment world state input
      exact ⟨final, .cons taken hrest⟩

theorem turns_of_chain {environment : Environment W Q A} {start final : σ}
    {history : List (Turn σ ι ο Q A)} (h : machine.Chain start history final) {world last : W}
    (answers : Program.Answers environment world (history.flatMap Turn.exchanges) last) :
    machine.turns environment world start (history.map Turn.input) = history := by
  induction h generalizing world with
  | nil state => rfl
  | @cons turn rest final taken _ ih =>
      obtain ⟨middle, hturn, hrest⟩ := answers.split
      simp only [List.map_cons, turns]
      rw [Program.run_of_yields taken hturn, ih hrest]

theorem Chain.of_nil {start final : σ} (h : machine.Chain start [] final) : final = start := by
  cases h
  rfl

theorem Chain.append {start middle final : σ} {past future : List (Turn σ ι ο Q A)}
    (hpast : machine.Chain start past middle) (hfuture : machine.Chain middle future final) :
    machine.Chain start (past ++ future) final := by
  induction hpast with
  | nil state => exact hfuture
  | cons taken _ ih => exact .cons taken (ih hfuture)

theorem Chain.split {start final : σ} {past future : List (Turn σ ι ο Q A)}
    (h : machine.Chain start (past ++ future) final) :
    ∃ middle, machine.Chain start past middle ∧ machine.Chain middle future final := by
  induction past generalizing start with
  | nil => exact ⟨start, .nil start, h⟩
  | cons turn past ih =>
      cases h with
      | cons taken rest =>
          obtain ⟨middle, hpast, hfuture⟩ := ih rest
          exact ⟨middle, .cons taken hpast, hfuture⟩

theorem Chain.cut {start final : σ} {past future : List (Turn σ ι ο Q A)}
    {turn : Turn σ ι ο Q A} (h : machine.Chain start (past ++ turn :: future) final) :
    machine.Chain start past turn.before ∧ machine.Takes turn ∧
      machine.Chain turn.after future final := by
  obtain ⟨middle, hpast, hrest⟩ := h.split
  cases hrest with
  | cons taken hfuture => exact ⟨hpast, taken, hfuture⟩

theorem Chain.takes {start final : σ} {history : List (Turn σ ι ο Q A)}
    (h : machine.Chain start history final) : ∀ turn ∈ history, machine.Takes turn := by
  intro turn hturn
  obtain ⟨past, future, rfl⟩ := List.append_of_mem hturn
  exact h.cut.2.1

/-- The run rule. What holds of the empty history, and is kept by every turn the
machine can take and the side condition allows, holds of the whole history. -/
theorem Chain.preserves {start final : σ} {history : List (Turn σ ι ο Q A)}
    (h : machine.Chain start history final)
    (Inv : List (Turn σ ι ο Q A) → σ → Prop) (initially : Inv [] start)
    (Allowed : Turn σ ι ο Q A → Prop) (allowed : ∀ turn ∈ history, Allowed turn)
    (step : ∀ past turn, Inv past turn.before → machine.Takes turn → Allowed turn →
      Inv (past ++ [turn]) turn.after) : Inv history final := by
  induction history using List.reverseRecOn generalizing final with
  | nil =>
      rw [h.of_nil]
      exact initially
  | append_singleton past turn ih =>
      obtain ⟨hpast, taken, hlast⟩ := h.cut
      rw [hlast.of_nil]
      have before : Inv past turn.before :=
        ih hpast fun t ht => allowed t (List.mem_append_left _ ht)
      exact step past turn before taken (allowed turn (by simp))

theorem Chain.invariant {start final : σ} {history : List (Turn σ ι ο Q A)}
    (h : machine.Chain start history final)
    (Inv : List (Turn σ ι ο Q A) → σ → Prop) (initially : Inv [] start)
    (step : ∀ past turn, Inv past turn.before → machine.Takes turn →
      Inv (past ++ [turn]) turn.after) : Inv history final :=
  h.preserves Inv initially (fun _ => True) (fun _ _ => trivial)
    fun past turn hinv taken _ => step past turn hinv taken

/-- The accounting rule. What each turn costs is paid for by its allowance and by what it
takes from the potential of the state, so the whole run is. -/
theorem Chain.amortized {start final : σ} {history : List (Turn σ ι ο Q A)}
    (h : machine.Chain start history final) (potential : σ → Nat)
    (cost allowance : Turn σ ι ο Q A → Nat)
    (each : ∀ turn, machine.Takes turn →
      cost turn + potential turn.before ≤ allowance turn + potential turn.after) :
    (history.map cost).sum + potential start ≤ (history.map allowance).sum + potential final := by
  induction h with
  | nil state => exact Nat.le_refl _
  | @cons turn rest final taken _ ih =>
      have first := each turn taken
      simp only [List.map_cons, List.sum_cons]
      omega

end Machine

end GitHubProvider.Interaction
