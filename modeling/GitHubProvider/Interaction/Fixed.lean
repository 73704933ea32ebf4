/- Programs and machines before an environment that answers by a function. -/

import GitHubProvider.Interaction.Machine

set_option autoImplicit false
set_option relaxedAutoImplicit false

namespace GitHubProvider.Interaction

variable {Q A α β σ τ ι ο : Type}

namespace Program

def eval (answer : Q → A) : Program Q A α → α
  | .done value => value
  | .ask question next => (next (answer question)).eval answer

variable (answer : Q → A)

@[simp] theorem eval_done (value : α) : (Program.done value : Program Q A α).eval answer = value :=
  rfl

@[simp] theorem eval_bind (program : Program Q A α) (f : α → Program Q A β) :
    (program >>= f).eval answer = (f (program.eval answer)).eval answer := by
  induction program with
  | done value => rfl
  | ask question next ih => exact ih (answer question)

theorem run_fixed (program : Program Q A α) :
    (program.run (fixed answer) ()).result = program.eval answer := by
  induction program with
  | done value => rfl
  | ask question next ih => exact ih (answer question)

theorem exchanges_fixed (program : Program Q A α) :
    ∀ e ∈ (program.run (fixed answer) ()).exchanges, e.2 = answer e.1 := by
  induction program with
  | done value => simp [run]
  | ask question next ih =>
      intro e he
      rcases List.mem_cons.mp he with rfl | he
      · rfl
      · exact ih (answer question) e he

theorem eval_of_yields {answer : Q → A} {program : Program Q A α} {exchanges : List (Q × A)}
    {value : α} (h : program.Yields exchanges value)
    (answered : ∀ e ∈ exchanges, e.2 = answer e.1) : program.eval answer = value := by
  induction h with
  | done value => rfl
  | @ask question _ given _ _ _ ih =>
      have first : given = answer question := answered (question, given) List.mem_cons_self
      rw [first] at ih
      exact ih fun e he => answered e (List.mem_cons_of_mem _ he)

end Program

/-- Each value once, and as many times more as is counted. -/
def repeated (counted : List (α × Nat)) : List α :=
  counted.flatMap fun (value, more) => value :: List.replicate more value

theorem repeated_cons (value : α) (more : Nat) (counted : List (α × Nat)) :
    repeated ((value, more) :: counted) =
      (value :: List.replicate more value) ++ repeated counted := rfl

namespace Machine

def outputs (machine : Machine σ ι ο Q A) (answer : Q → A) : σ → List ι → List ο
  | _, [] => []
  | state, input :: inputs =>
      ((machine state input).eval answer).1 ::
        machine.outputs answer ((machine state input).eval answer).2 inputs

def reached (machine : Machine σ ι ο Q A) (answer : Q → A) : σ → List ι → σ
  | state, [] => state
  | state, input :: inputs => machine.reached answer ((machine state input).eval answer).2 inputs

variable (machine : Machine σ ι ο Q A) (answer : Q → A)

theorem outputs_append (state : σ) (first second : List ι) :
    machine.outputs answer state (first ++ second) =
      machine.outputs answer state first ++
        machine.outputs answer (machine.reached answer state first) second := by
  induction first generalizing state with
  | nil => rfl
  | cons input first ih => simp only [List.cons_append, outputs, reached, ih]

theorem reached_append (state : σ) (first second : List ι) :
    machine.reached answer state (first ++ second) =
      machine.reached answer (machine.reached answer state first) second := by
  induction first generalizing state with
  | nil => rfl
  | cons input first ih => simp only [List.cons_append, reached, ih]

@[simp] theorem length_outputs (state : σ) (inputs : List ι) :
    (machine.outputs answer state inputs).length = inputs.length := by
  induction inputs generalizing state with
  | nil => rfl
  | cons input inputs ih => simp only [outputs, List.length_cons, ih]

theorem turns_fixed_output (state : σ) (inputs : List ι) :
    (machine.turns (fixed answer) () state inputs).map Turn.output =
      machine.outputs answer state inputs := by
  induction inputs generalizing state with
  | nil => rfl
  | cons input inputs ih =>
      simp only [turns, List.map_cons, outputs, Program.run_fixed]
      exact congrArg _ (ih _)

theorem turns_fixed_append (state : σ) (first second : List ι) :
    machine.turns (fixed answer) () state (first ++ second) =
      machine.turns (fixed answer) () state first ++
        machine.turns (fixed answer) () (machine.reached answer state first) second := by
  induction first generalizing state with
  | nil => rfl
  | cons input first ih =>
      simp only [List.cons_append, turns, Program.run_fixed, reached]
      exact congrArg _ (ih _)

theorem turns_fixed_exchanges {machine : Machine σ ι ο Q A} {answer : Q → A} {state : σ}
    {inputs : List ι} {turn : Turn σ ι ο Q A}
    (h : turn ∈ machine.turns (fixed answer) () state inputs) :
    ∀ e ∈ turn.exchanges, e.2 = answer e.1 := by
  induction inputs generalizing state with
  | nil => cases h
  | cons input inputs ih =>
      rcases List.mem_cons.mp h with rfl | h
      · exact Program.exchanges_fixed answer (machine state input)
      · exact ih h

theorem mem_turns_fixed {machine : Machine σ ι ο Q A} {answer : Q → A} {state : σ}
    {inputs : List ι} {turn : Turn σ ι ο Q A}
    (h : turn ∈ machine.turns (fixed answer) () state inputs) :
    ∃ past future, inputs = past ++ turn.input :: future ∧
      turn.before = machine.reached answer state past ∧
      turn.after = machine.reached answer state (past ++ [turn.input]) := by
  induction inputs generalizing state with
  | nil => cases h
  | cons input inputs ih =>
      rcases List.mem_cons.mp h with rfl | h
      · refine ⟨[], inputs, rfl, rfl, ?_⟩
        exact congrArg Prod.snd (Program.run_fixed answer (machine state input))
      · rw [Program.run_fixed] at h
        obtain ⟨past, future, rfl, before, after⟩ := ih h
        exact ⟨input :: past, future, rfl, before, after⟩

theorem chain_reached (state : σ) (inputs : List ι) :
    machine.Chain state (machine.turns (fixed answer) () state inputs)
      (machine.reached answer state inputs) := by
  induction inputs generalizing state with
  | nil => exact .nil state
  | cons input inputs ih =>
      have taken := machine.takes_run (fixed answer) () state input
      simp only [reached, ← Program.run_fixed]
      exact .cons taken (ih _)

theorem reached_of_chain {machine : Machine σ ι ο Q A} {answer : Q → A} {start final : σ}
    {history : List (Turn σ ι ο Q A)} (h : machine.Chain start history final)
    (answered : ∀ turn ∈ history, ∀ e ∈ turn.exchanges, e.2 = answer e.1) :
    machine.reached answer start (history.map Turn.input) = final := by
  induction h with
  | nil state => rfl
  | @cons turn rest final taken _ ih =>
      have first := Program.eval_of_yields taken (answered turn List.mem_cons_self)
      rw [List.map_cons, reached, first]
      exact ih fun later hlater => answered later (List.mem_cons_of_mem _ hlater)

theorem play_still {state : σ} {inputs : List ι}
    (still : ∀ input ∈ inputs, ((machine state input).eval answer).2 = state) :
    machine.reached answer state inputs = state ∧
      machine.outputs answer state inputs =
        inputs.map fun input => ((machine state input).eval answer).1 := by
  induction inputs with
  | nil => exact ⟨rfl, rfl⟩
  | cons input inputs ih =>
      have head := still input List.mem_cons_self
      obtain ⟨reaches, puts⟩ := ih fun i hi => still i (List.mem_cons_of_mem _ hi)
      simp only [reached, outputs, head, reaches, puts, List.map_cons, and_self]

/-- If doing again what has just been done makes no difference, inputs may be repeated: their
outputs are repeated with them, and nothing else changes. -/
theorem play_repeated
    (settles : ∀ state input, (machine ((machine state input).eval answer).2 input).eval answer =
      (machine state input).eval answer) (state : σ) (counted : List (ι × Nat)) :
    machine.reached answer state (repeated counted) =
        machine.reached answer state (counted.map Prod.fst) ∧
      machine.outputs answer state (repeated counted) =
        repeated ((machine.outputs answer state (counted.map Prod.fst)).zip
          (counted.map Prod.snd)) := by
  induction counted generalizing state with
  | nil => exact ⟨rfl, rfl⟩
  | cons first counted ih =>
      obtain ⟨input, more⟩ := first
      have again : ∀ i ∈ List.replicate more input,
          (machine ((machine state input).eval answer).2 i).eval answer =
            (machine state input).eval answer := by
        intro i hi
        rw [List.eq_of_mem_replicate hi]
        exact settles state input
      obtain ⟨stays, puts⟩ := play_still machine answer fun i hi => congrArg Prod.snd (again i hi)
      obtain ⟨reaches, rest⟩ := ih ((machine state input).eval answer).2
      have same : (List.replicate more input).map (fun i =>
          ((machine ((machine state input).eval answer).2 i).eval answer).1) =
            List.replicate more ((machine state input).eval answer).1 := by
        rw [List.map_congr_left fun i hi => congrArg Prod.fst (again i hi), List.map_const',
          List.length_replicate]
      constructor
      · simp only [repeated_cons, List.cons_append, reached, reached_append, stays, reaches,
          List.map_cons]
      · simp only [repeated_cons, List.cons_append, outputs, outputs_append, stays, puts, same,
          rest, List.map_cons, List.zip_cons_cons]

/-- With inputs that leave every state as it is put in place of other such inputs, the
same states are passed through. -/
theorem reached_prefix {machine : Machine σ ι ο Q A} {answer : Q → A} {state : σ}
    {first inputs inputs' last past future : List ι}
    (still : ∀ state, ∀ input ∈ inputs, ((machine state input).eval answer).2 = state)
    (still' : ∀ state, ∀ input ∈ inputs', ((machine state input).eval answer).2 = state)
    (h : first ++ inputs' ++ last = past ++ future) :
    ∃ past' future', first ++ inputs ++ last = past' ++ future' ∧
      machine.reached answer state past' = machine.reached answer state past := by
  rcases List.append_eq_append_iff.mp h with ⟨after, rfl, rfl⟩ | ⟨rest, front, rfl⟩
  · refine ⟨first ++ inputs ++ after, future, (List.append_assoc _ _ _).symm, ?_⟩
    simp only [reached_append, (play_still machine answer (still _)).1,
      (play_still machine answer (still' _)).1]
  rcases List.append_eq_append_iff.mp front with ⟨before, rfl, rfl⟩ | ⟨between, rfl, rfl⟩
  · refine ⟨first, inputs ++ last, List.append_assoc _ _ _, ?_⟩
    have quiet : ∀ input ∈ before,
        ((machine (machine.reached answer state first) input).eval answer).2 =
          machine.reached answer state first :=
      fun input hi => still' _ input (List.mem_append_left _ hi)
    rw [reached_append, (play_still machine answer quiet).1]
  · exact ⟨past, between ++ inputs ++ last, by simp only [List.append_assoc], rfl⟩

variable {machine : Machine σ ι ο Q A} {machine' : Machine τ ι ο Q A} {answer : Q → A}
  {forget : σ → τ}

theorem reached_forget
    (forgets : ∀ state input, forget ((machine state input).eval answer).2 =
      ((machine' (forget state) input).eval answer).2) (state : σ) (inputs : List ι) :
    forget (machine.reached answer state inputs) =
      machine'.reached answer (forget state) inputs := by
  induction inputs generalizing state with
  | nil => rfl
  | cons input inputs ih => simp only [reached, ih, forgets]

theorem outputs_forget
    (forgets : ∀ state input, forget ((machine state input).eval answer).2 =
      ((machine' (forget state) input).eval answer).2) {state : σ} {inputs : List ι}
    (agrees : ∀ past input future, inputs = past ++ input :: future →
      ((machine (machine.reached answer state past) input).eval answer).1 =
        ((machine' (forget (machine.reached answer state past)) input).eval answer).1) :
    machine.outputs answer state inputs = machine'.outputs answer (forget state) inputs := by
  induction inputs generalizing state with
  | nil => rfl
  | cons input inputs ih =>
      have head := agrees [] input inputs rfl
      have rest : machine.outputs answer ((machine state input).eval answer).2 inputs =
          machine'.outputs answer (forget ((machine state input).eval answer).2) inputs :=
        ih fun past i future h => agrees (input :: past) i future (congrArg _ h)
      simp only [outputs]
      rw [rest, forgets]
      exact congrArg (· :: _) head

end Machine

end GitHubProvider.Interaction
