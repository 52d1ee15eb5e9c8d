import Configd.Lib.Runs

/-!
# Endless runs and fairness

An endless run of a step function is given by its sequence of actions
(`stateAt`).  An action is taken *weakly fairly* when it is taken at some point
whenever it stays ready from some point on (`WeaklyFair`).

`WeaklyFair.exists_of_step` is the rule for progress: as long as a state property
makes the action ready, and every step either reaches the goal or keeps the property
without taking the action, the goal is reached.
-/

namespace Configd
namespace Lib

variable {S A : Type*} (step : S → A → S) (start : S) (acts : Nat → A)

def stateAt : Nat → S
  | 0 => start
  | n + 1 => step (stateAt n) (acts n)

/-- An action that stays ready is taken at some point. -/
def WeaklyFair (ready : S → Prop) (taken : A → Prop) : Prop :=
  ∀ n, (∀ m, n ≤ m → ready (stateAt step start acts m)) → ∃ m, n ≤ m ∧ taken (acts m)

section Rules

variable {step start acts}

theorem stateAt_invariant {motive : S → Prop} (hstart : motive start)
    (hstep : ∀ s a, motive s → motive (step s a)) (n : Nat) :
    motive (stateAt step start acts n) := by
  induction n with
  | zero => exact hstart
  | succ n ih => exact hstep _ _ ih

theorem forall_of_step {p : Nat → Prop} {n : Nat} (hn : p n)
    (hstep : ∀ m, n ≤ m → p m → p (m + 1)) : ∀ m, n ≤ m → p m := by
  intro m hm
  induction hm with
  | refl => exact hn
  | step hm ih => exact hstep _ hm ih

/-- **The rule for progress.** -/
theorem WeaklyFair.exists_of_step {ready : S → Prop} {taken : A → Prop}
    (hfair : WeaklyFair step start acts ready taken) (p goal : Nat → Prop)
    (hready : ∀ m, p m → ready (stateAt step start acts m))
    (hstep : ∀ m, p m → goal m ∨ p (m + 1) ∧ ¬ taken (acts m)) {n : Nat} (hn : p n) :
    ∃ m, n ≤ m ∧ goal m := by
  by_contra hnever
  push Not at hnever
  have hkeeps : ∀ m, n ≤ m → p m := by
    refine forall_of_step hn ?_
    intro m hm hp
    exact ((hstep m hp).resolve_left (hnever m hm)).1
  obtain ⟨m, hm, htaken⟩ := hfair n fun m hm => hready m (hkeeps m hm)
  exact ((hstep m (hkeeps m hm)).resolve_left (hnever m hm)).2 htaken

end Rules

end Lib
end Configd
