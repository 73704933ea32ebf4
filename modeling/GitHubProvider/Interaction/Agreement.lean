/- Two environments that cannot be told apart, and programs that do not tell them apart. -/

import GitHubProvider.Interaction.Machine

/-!
Questions may carry a part that an observer is not to learn. `f` and `g` send
the public part of a question to the whole of it, once with each hidden part.
Programs are alike when they ask the same public questions and go on the same
way; environments agree when they give the same answers to the same public
questions. Alike programs under agreeing environments have one public run.
-/

set_option autoImplicit false
set_option relaxedAutoImplicit false

namespace GitHubProvider.Interaction

variable {P Q Q' R R' A B α β σ ι ο W W' : Type}

def replies (environment : Environment W Q A) : W → List Q → List A
  | _, [] => []
  | world, question :: questions =>
      (environment world question).1 ::
        replies environment (environment world question).2 questions

/-- The same public questions are given the same answers, whatever was asked before. -/
def Agree (f : P → Q) (g : P → Q') (first : Environment W Q A) (second : Environment W' Q' A)
    (world : W) (world' : W') : Prop :=
  ∀ questions : List P,
    replies first world (questions.map f) = replies second world' (questions.map g)

theorem Agree.answer {f : P → Q} {g : P → Q'} {first : Environment W Q A}
    {second : Environment W' Q' A} {world : W} {world' : W'}
    (h : Agree f g first second world world') (question : P) :
    (first world (f question)).1 = (second world' (g question)).1 ∧
      Agree f g first second (first world (f question)).2 (second world' (g question)).2 := by
  constructor
  · have head := h [question]
    simpa only [List.map_cons, List.map_nil, replies, List.cons.injEq, and_true] using head
  · intro questions
    have tail := h (question :: questions)
    simp only [List.map_cons, replies, List.cons.injEq] at tail
    exact tail.2

namespace Program

/-- The programs ask the same public questions and go on the same way from every answer. -/
inductive Alike (f : P → Q) (g : P → Q') : Program Q A α → Program Q' A α → Prop
  | done (value : α) : Alike f g (.done value) (.done value)
  | ask (question : P) {next : A → Program Q A α} {next' : A → Program Q' A α} :
      (∀ answer, Alike f g (next answer) (next' answer)) →
      Alike f g (.ask (f question) next) (.ask (g question) next')

theorem Alike.bind {f : P → Q} {g : P → Q'} {program : Program Q A α}
    {program' : Program Q' A α} {next : α → Program Q A β} {next' : α → Program Q' A β}
    (h : Alike f g program program') (hnext : ∀ value, Alike f g (next value) (next' value)) :
    Alike f g (program >>= next) (program' >>= next') := by
  induction h with
  | done value => exact hnext value
  | ask question _ ih => exact .ask question ih

theorem Alike.interpret {P' : Type} {q : P' → R} {r : P' → R'} {f : P → Q} {g : P → Q'}
    {handler : Q → Program R B A} {handler' : Q' → Program R' B A} {program : Program Q A α}
    {program' : Program Q' A α} (h : Alike f g program program')
    (alike : ∀ question, Alike q r (handler (f question)) (handler' (g question))) :
    Alike q r (program.interpret handler) (program'.interpret handler') := by
  induction h with
  | done value => exact .done value
  | ask question _ ih => exact (alike question).bind ih

def SameExchanges (f : P → Q) (g : P → Q') (exchanges : List (Q × A))
    (exchanges' : List (Q' × A)) : Prop :=
  ∃ asked : List (P × A), exchanges = asked.map (fun e => (f e.1, e.2)) ∧
    exchanges' = asked.map fun e => (g e.1, e.2)

theorem Alike.run {f : P → Q} {g : P → Q'} {first : Environment W Q A}
    {second : Environment W' Q' A} {program : Program Q A α} {program' : Program Q' A α}
    (h : Alike f g program program') {world : W} {world' : W'}
    (agree : Agree f g first second world world') :
    (program.run first world).result = (program'.run second world').result ∧
      SameExchanges f g (program.run first world).exchanges
        (program'.run second world').exchanges ∧
      Agree f g first second (program.run first world).world
        (program'.run second world').world := by
  induction h generalizing world world' with
  | done value => exact ⟨rfl, ⟨[], rfl, rfl⟩, agree⟩
  | @ask question next next' _ ih =>
      obtain ⟨answered, agree'⟩ := agree.answer question
      obtain ⟨result, ⟨asked, hfirst, hsecond⟩, later⟩ :=
        ih (first world (f question)).1 agree'
      simp only [Program.run]
      rw [← answered]
      refine ⟨result, ⟨(question, (first world (f question)).1) :: asked, ?_, ?_⟩, later⟩
      · simp only [List.map_cons, hfirst]
      · simp only [List.map_cons, hsecond]

end Program

/-- Two turns that an observer of the public part cannot tell apart. -/
structure SameTurn (f : P → Q) (g : P → Q') (turn : Turn σ ι ο Q A)
    (turn' : Turn σ ι ο Q' A) : Prop where
  before : turn.before = turn'.before
  input : turn.input = turn'.input
  output : turn.output = turn'.output
  exchanges : Program.SameExchanges f g turn.exchanges turn'.exchanges
  after : turn.after = turn'.after

/-- Two machines that answer every input by alike programs have one public
history against agreeing environments. -/
theorem Machine.turns_alike {f : P → Q} {g : P → Q'} {machine : Machine σ ι ο Q A}
    {machine' : Machine σ ι ο Q' A} (alike : ∀ state input,
      Program.Alike f g (machine state input) (machine' state input))
    {first : Environment W Q A} {second : Environment W' Q' A} {world : W} {world' : W'}
    (agree : Agree f g first second world world') (state : σ) (inputs : List ι) :
    List.Forall₂ (SameTurn f g) (machine.turns first world state inputs)
      (machine'.turns second world' state inputs) := by
  induction inputs generalizing state world world' with
  | nil => exact .nil
  | cons input inputs ih =>
      obtain ⟨result, exchanges, later⟩ := (alike state input).run agree
      have rest := ih later ((machine state input).run first world).result.2
      simp only [turns]
      rw [← result]
      exact .cons ⟨rfl, rfl, rfl, exchanges, rfl⟩ rest

end GitHubProvider.Interaction
