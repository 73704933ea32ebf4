/- Runs of one machine seen as runs of another. -/

import GitHubProvider.Interaction.Machine

/-!
A machine is looked at through a view of its states. Some turns are kept, and each of
these must be a turn the other machine can take, with exchanges of its own; the rest
are left out, and must not be visible. Then the kept turns of a run are a run.
-/

set_option autoImplicit false
set_option relaxedAutoImplicit false

namespace GitHubProvider.Interaction

variable {σ τ ι ο Q A Q' A' : Type}

def Turn.seen (view : σ → τ) (exchanges : List (Q' × A')) (turn : Turn σ ι ο Q A) :
    Turn τ ι ο Q' A' :=
  ⟨view turn.before, turn.input, turn.output, exchanges, view turn.after⟩

namespace Machine

/-- The turn is seen as one of the other machine, with exchanges that stand for its own. -/
def SeenAs (view : σ → τ) (Stands : Turn σ ι ο Q A → List (Q' × A') → Prop)
    (turn : Turn σ ι ο Q A) (image : Turn τ ι ο Q' A') : Prop :=
  ∃ exchanges, Stands turn exchanges ∧ image = turn.seen view exchanges

/-- What the turns of a machine must be for its runs to be seen as runs of another. -/
structure Simulates (machine : Machine σ ι ο Q A) (abstract : Machine τ ι ο Q' A')
    (view : σ → τ) (Stands : Turn σ ι ο Q A → List (Q' × A') → Prop)
    (kept : Turn σ ι ο Q A → Bool) (turn : Turn σ ι ο Q A) : Prop where
  step : machine.Takes turn → kept turn = true →
    ∃ image, SeenAs view Stands turn image ∧ abstract.Takes image
  stutter : machine.Takes turn → kept turn = false → view turn.after = view turn.before

variable {machine : Machine σ ι ο Q A} {abstract : Machine τ ι ο Q' A'} {view : σ → τ}
  {Stands : Turn σ ι ο Q A → List (Q' × A') → Prop} {kept : Turn σ ι ο Q A → Bool}

theorem Chain.simulates {start final : σ} {history : List (Turn σ ι ο Q A)}
    (h : machine.Chain start history final)
    (each : ∀ turn ∈ history, machine.Simulates abstract view Stands kept turn) :
    ∃ images, abstract.Chain (view start) images (view final) ∧
      List.Forall₂ (SeenAs view Stands) (history.filter kept) images := by
  induction h with
  | nil state => exact ⟨[], .nil _, .nil⟩
  | @cons turn rest final taken _ ih =>
      obtain ⟨images, hchain, hseen⟩ := ih fun t ht => each t (List.mem_cons_of_mem _ ht)
      have simulated := each turn List.mem_cons_self
      cases keeps : kept turn with
      | true =>
          obtain ⟨image, ⟨exchanges, stands, rfl⟩, taken'⟩ := simulated.step taken keeps
          refine ⟨turn.seen view exchanges :: images, .cons taken' hchain, ?_⟩
          rw [List.filter_cons_of_pos keeps]
          exact .cons ⟨exchanges, stands, rfl⟩ hseen
      | false =>
          rw [← simulated.stutter taken keeps,
            List.filter_cons_of_neg (by rw [keeps]; exact Bool.false_ne_true)]
          exact ⟨images, hchain, hseen⟩

end Machine

end GitHubProvider.Interaction
