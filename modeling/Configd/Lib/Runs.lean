import Mathlib.Data.List.Induction

/-!
# Runs of a step function

A system is given by a total step function on states and actions; a run is a
list of actions.  The rules below turn what one step keeps into what a whole run
keeps, with or without a condition that every step of the run meets in the state
in which it is made.

A step function may also refuse an action.  A run of such a system is a list of
actions none of which is refused (`follow`), and `follow_induction` is the rule for
what holds of every run together with the state it leads to.
-/

namespace Configd
namespace Lib

variable {S A : Type*}

def run (step : S → A → S) (s : S) (acts : List A) : S :=
  acts.foldl step s

/-- Every step of the run meets the condition, in the state in which it is made. -/
def Along (step : S → A → S) (cond : S → A → Prop) : S → List A → Prop
  | _, [] => True
  | s, a :: rest => cond s a ∧ Along step cond (step s a) rest

instance Along.decidable (step : S → A → S) (cond : S → A → Prop)
    [∀ s a, Decidable (cond s a)] : ∀ s acts, Decidable (Along step cond s acts)
  | _, [] => inferInstanceAs (Decidable True)
  | s, a :: rest =>
    have := Along.decidable step cond (step s a) rest
    inferInstanceAs (Decidable (cond s a ∧ Along step cond (step s a) rest))

section Rules

variable {step : S → A → S} {cond : S → A → Prop}

theorem run_invariant_along {motive : S → Prop} {s : S} {acts : List A} (hs : motive s)
    (hstep : ∀ s a, motive s → cond s a → motive (step s a)) (hacts : Along step cond s acts) :
    motive (run step s acts) := by
  induction acts generalizing s with
  | nil => exact hs
  | cons a rest ih => exact ih (hstep s a hs hacts.1) hacts.2

theorem run_invariant {motive : S → Prop} {s : S} (hs : motive s)
    (hstep : ∀ s a, motive s → motive (step s a)) (acts : List A) :
    motive (run step s acts) := by
  induction acts generalizing s with
  | nil => exact hs
  | cons a rest ih => exact ih (hstep s a hs)

end Rules

/-! ## Steps that may be refused -/

/-- The state after a run, if no action of it is refused. -/
def follow (step : S → A → Option S) : S → List A → Option S
  | s, [] => some s
  | s, a :: rest => (step s a).bind fun s' => follow step s' rest

section Follow

variable {step : S → A → Option S}

theorem follow_append (s : S) (before after : List A) :
    follow step s (before ++ after) =
      (follow step s before).bind fun s' => follow step s' after := by
  induction before generalizing s with
  | nil => rfl
  | cons a rest ih =>
    rw [List.cons_append, follow, follow]
    cases step s a with
    | none => rfl
    | some s' => exact ih s'

theorem follow_concat {s s' : S} {acts : List A} {a : A} :
    follow step s (acts ++ [a]) = some s' ↔
      ∃ mid, follow step s acts = some mid ∧ step mid a = some s' := by
  rw [follow_append, Option.bind_eq_some_iff]
  simp [follow]

theorem follow_induction {motive : List A → S → Prop} {start : S} (hstart : motive [] start)
    (hstep : ∀ acts s a s', follow step start acts = some s → motive acts s → step s a = some s' →
      motive (acts ++ [a]) s') :
    ∀ {acts : List A} {s : S}, follow step start acts = some s → motive acts s := by
  intro acts
  induction acts using List.reverseRecOn with
  | nil =>
    intro s hs
    obtain rfl := Option.some.inj hs
    exact hstart
  | append_singleton acts a ih =>
    intro s hs
    obtain ⟨mid, hmid, hlast⟩ := follow_concat.mp hs
    exact hstep acts mid a s hmid (ih hmid) hlast

end Follow

end Lib
end Configd
