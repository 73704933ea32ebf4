/- Programs that ask an environment questions, their runs and their exchanges. -/

import Mathlib.Control.Basic
import Mathlib.Data.List.Forall2

/-!
A program is a finite tree: it ends in a value or asks one question and goes on
from the answer. Nothing is fixed about who answers. `run` plays a program
against an environment with a memory of its own; `Yields` records, for any
answers whatever, which questions were asked and what the program ended in.
-/

set_option autoImplicit false
set_option relaxedAutoImplicit false

namespace GitHubProvider.Interaction

/-- A computation that may ask questions in `Q` and is answered in `A`. -/
inductive Program (Q A α : Type) where
  | done (value : α)
  | ask (question : Q) (next : A → Program Q A α)

variable {Q A Q' A' W α β γ : Type}

namespace Program

def bind : Program Q A α → (α → Program Q A β) → Program Q A β
  | .done value, f => f value
  | .ask question next, f => .ask question fun answer => (next answer).bind f

instance : Monad (Program Q A) where
  pure := .done
  bind := .bind

def query (question : Q) : Program Q A A := .ask question .done

@[simp] theorem pure_eq (value : α) : (pure value : Program Q A α) = .done value := rfl

@[simp] theorem done_bind (value : α) (f : α → Program Q A β) :
    (Program.done value >>= f) = f value := rfl

@[simp] theorem ask_bind (question : Q) (next : A → Program Q A α) (f : α → Program Q A β) :
    (Program.ask question next >>= f) = .ask question fun answer => next answer >>= f := rfl

@[simp] theorem query_bind (question : Q) (f : A → Program Q A β) :
    (query question >>= f) = .ask question f := rfl

private theorem bind_done (program : Program Q A α) : program.bind .done = program := by
  induction program with
  | done value => rfl
  | ask question next ih =>
      simp only [bind]
      congr 1
      funext answer
      exact ih answer

private theorem bind_assoc (program : Program Q A α) (f : α → Program Q A β)
    (g : β → Program Q A γ) :
    (program.bind f).bind g = program.bind fun value => (f value).bind g := by
  induction program with
  | done value => rfl
  | ask question next ih =>
      simp only [bind]
      congr 1
      funext answer
      exact ih answer

instance : LawfulMonad (Program Q A) :=
  LawfulMonad.mk' (Program Q A) bind_done (fun _ _ => rfl) bind_assoc

end Program

/-- An environment answers from a memory of its own, so the same question may
be answered differently each time it is asked. -/
abbrev Environment (W Q A : Type) := W → Q → A × W

def fixed (answer : Q → A) : Environment Unit Q A := fun _ question => (answer question, ())

def replay (spare : A) : Environment (List A) Q A :=
  fun answers _ => (answers.headD spare, answers.tail)

structure Execution (W Q A α : Type) where
  result : α
  exchanges : List (Q × A)
  world : W

namespace Program

def run (environment : Environment W Q A) : W → Program Q A α → Execution W Q A α
  | world, .done value => ⟨value, [], world⟩
  | world, .ask question next =>
      let answered := environment world question
      let rest := run environment answered.2 (next answered.1)
      ⟨rest.result, (question, answered.1) :: rest.exchanges, rest.world⟩

theorem run_bind (environment : Environment W Q A) (world : W) (program : Program Q A α)
    (f : α → Program Q A β) :
    (program >>= f).run environment world =
      ⟨((f (program.run environment world).result).run environment
          (program.run environment world).world).result,
        (program.run environment world).exchanges ++
          ((f (program.run environment world).result).run environment
            (program.run environment world).world).exchanges,
        ((f (program.run environment world).result).run environment
          (program.run environment world).world).world⟩ := by
  induction program generalizing world with
  | done value => rfl
  | ask question next ih => simp only [ask_bind, run, ih, List.cons_append]

/-- Given the answers recorded in the list, the program asks exactly its
questions, in order, and ends in the value. -/
inductive Yields : Program Q A α → List (Q × A) → α → Prop
  | done (value : α) : Yields (.done value) [] value
  | ask {question : Q} {next : A → Program Q A α} {answer : A}
      {exchanges : List (Q × A)} {value : α} :
      Yields (next answer) exchanges value →
      Yields (.ask question next) ((question, answer) :: exchanges) value

@[simp] theorem yields_done {value result : α} {exchanges : List (Q × A)} :
    Yields (.done value) exchanges result ↔ exchanges = [] ∧ result = value := by
  constructor
  · rintro ⟨⟩
    exact ⟨rfl, rfl⟩
  · intro h
    obtain ⟨rfl, rfl⟩ := h
    exact .done _

theorem yields_ask {question : Q} {next : A → Program Q A α} {result : α}
    {exchanges : List (Q × A)} :
    Yields (.ask question next) exchanges result ↔
      ∃ answer rest, exchanges = (question, answer) :: rest ∧
        Yields (next answer) rest result := by
  constructor
  · rintro ⟨⟩
    exact ⟨_, _, rfl, by assumption⟩
  · intro h
    obtain ⟨answer, rest, rfl, h⟩ := h
    exact .ask h

theorem yields_bind {program : Program Q A α} {f : α → Program Q A β} {result : β}
    {exchanges : List (Q × A)} :
    Yields (program >>= f) exchanges result ↔
      ∃ first second value, exchanges = first ++ second ∧
        Yields program first value ∧ Yields (f value) second result := by
  induction program generalizing exchanges with
  | done value =>
      constructor
      · intro h
        exact ⟨[], exchanges, value, rfl, .done value, h⟩
      · intro h
        obtain ⟨first, second, value', rfl, hfirst, hsecond⟩ := h
        obtain ⟨rfl, rfl⟩ := yields_done.mp hfirst
        exact hsecond
  | ask question next ih =>
      rw [ask_bind, yields_ask]
      constructor
      · intro h
        obtain ⟨answer, rest, rfl, h⟩ := h
        obtain ⟨first, second, value, rfl, hfirst, hsecond⟩ := (ih answer).mp h
        exact ⟨(question, answer) :: first, second, value, rfl, .ask hfirst, hsecond⟩
      · intro h
        obtain ⟨first, second, value, rfl, hfirst, hsecond⟩ := h
        obtain ⟨answer, rest, rfl, h⟩ := yields_ask.mp hfirst
        exact ⟨answer, rest ++ second, rfl, (ih answer).mpr ⟨rest, second, value, rfl, h, hsecond⟩⟩

theorem yields_query_map {question : Q} {f : A → α} {result : α}
    {exchanges : List (Q × A)} :
    Yields (query question >>= fun answer => pure (f answer)) exchanges result ↔
      ∃ answer, exchanges = [(question, answer)] ∧ result = f answer := by
  simp only [query_bind, pure_eq, yields_ask, yields_done]
  constructor
  · intro h
    obtain ⟨answer, rest, rfl, rfl, rfl⟩ := h
    exact ⟨answer, rfl, rfl⟩
  · intro h
    obtain ⟨answer, rfl, rfl⟩ := h
    exact ⟨answer, [], rfl, rfl, rfl⟩

theorem run_yields (environment : Environment W Q A) (world : W) (program : Program Q A α) :
    program.Yields (program.run environment world).exchanges
      (program.run environment world).result := by
  induction program generalizing world with
  | done value => exact .done value
  | ask question next ih => exact .ask (ih _ _)

theorem run_answered (environment : Environment W Q A) (world : W) (program : Program Q A α) :
    ∀ e ∈ (program.run environment world).exchanges,
      ∃ world', e.2 = (environment world' e.1).1 := by
  induction program generalizing world with
  | done value => simp [run]
  | ask question next ih =>
      intro e he
      rcases List.mem_cons.mp he with rfl | later
      · exact ⟨world, rfl⟩
      · exact ih _ _ e later

/-- The environment gives the recorded answers, one question after another. -/
inductive Answers (environment : Environment W Q A) : W → List (Q × A) → W → Prop
  | nil (world : W) : Answers environment world [] world
  | cons {world world' final : W} {question : Q} {answer : A} {rest : List (Q × A)} :
      environment world question = (answer, world') → Answers environment world' rest final →
      Answers environment world ((question, answer) :: rest) final

theorem answers_replay (spare : A) (exchanges : List (Q × A)) :
    Answers (replay spare) (exchanges.map Prod.snd) exchanges [] := by
  induction exchanges with
  | nil => exact .nil []
  | cons e rest ih => exact .cons rfl ih

theorem Answers.split {environment : Environment W Q A} {world final : W}
    {first second : List (Q × A)} (h : Answers environment world (first ++ second) final) :
    ∃ middle, Answers environment world first middle ∧ Answers environment middle second final := by
  induction first generalizing world with
  | nil => exact ⟨world, .nil world, h⟩
  | cons e first ih =>
      cases h with
      | cons answered rest =>
          obtain ⟨middle, hfirst, hsecond⟩ := ih rest
          exact ⟨middle, .cons answered hfirst, hsecond⟩

theorem run_of_yields {environment : Environment W Q A} {program : Program Q A α}
    {exchanges : List (Q × A)} {value : α} {world final : W} (h : program.Yields exchanges value)
    (answers : Answers environment world exchanges final) :
    program.run environment world = ⟨value, exchanges, final⟩ := by
  induction h generalizing world with
  | done value =>
      cases answers
      rfl
  | ask _ ih =>
      cases answers with
      | cons answered rest =>
          simp only [run, answered]
          rw [ih rest]

def interpret (handler : Q → Program Q' A' A) : Program Q A α → Program Q' A' α
  | .done value => .done value
  | .ask question next => handler question >>= fun answer => (next answer).interpret handler

/-- The environment that a program meets behind a handler which turns each question
into one question. -/
def behind (f : Q → Q') (g : A' → A) (environment : Environment W Q' A') : Environment W Q A :=
  fun world question =>
    let answered := environment world (f question)
    (g answered.1, answered.2)

/-- To run a program through such a handler is to run it behind the handler. -/
theorem run_interpret (f : Q → Q') (g : A' → A) (environment : Environment W Q' A') (world : W)
    (program : Program Q A α) :
    ((program.interpret fun question =>
        query (f question) >>= fun answer => pure (g answer)).run environment world).result =
      (program.run (behind f g environment) world).result := by
  induction program generalizing world with
  | done value => rfl
  | ask question next ih => exact ih _ _

theorem yields_interpret (f : Q → Q') (g : A' → A) {program : Program Q A α}
    {exchanges : List (Q' × A')} {result : α} :
    Yields (program.interpret fun question =>
        query (f question) >>= fun answer => pure (g answer)) exchanges result ↔
      ∃ inner, Yields program inner result ∧
        List.Forall₂ (fun i o => o.1 = f i.1 ∧ i.2 = g o.2) inner exchanges := by
  induction program generalizing exchanges with
  | done value =>
      simp only [interpret, yields_done]
      constructor
      · intro h
        obtain ⟨rfl, rfl⟩ := h
        exact ⟨[], ⟨rfl, rfl⟩, .nil⟩
      · intro h
        obtain ⟨inner, ⟨rfl, rfl⟩, h⟩ := h
        cases h
        exact ⟨rfl, rfl⟩
  | ask question next ih =>
      simp only [interpret, query_bind, ask_bind, pure_eq, done_bind, yields_ask]
      constructor
      · intro h
        obtain ⟨answer, rest, rfl, h⟩ := h
        obtain ⟨inner, hinner, hrest⟩ := (ih (g answer)).mp h
        exact ⟨(question, g answer) :: inner, ⟨g answer, inner, rfl, hinner⟩,
          .cons ⟨rfl, rfl⟩ hrest⟩
      · intro h
        obtain ⟨inner, ⟨answer, rest, rfl, hrest⟩, h⟩ := h
        obtain ⟨⟨q', a'⟩, outer, ⟨hq, ha⟩, houter, rfl⟩ := List.forall₂_cons_left_iff.mp h
        obtain rfl : q' = f question := hq
        obtain rfl : answer = g a' := ha
        exact ⟨a', outer, rfl, (ih (g a')).mpr ⟨rest, hrest, houter⟩⟩

end Program

end GitHubProvider.Interaction
