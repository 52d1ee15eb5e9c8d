import Mathlib

/-!
# Requests that may be delivered more than once

A client that gets no reply to a request cannot know whether the server has carried it out, and
sends it again.  `Delivered` says what may become of the state of the server meanwhile: the
request is carried out any number of times, or not at all.

When the request, as far as the server accepts it, does something idempotent (`Does`), at most
one of the deliveries counts (`Does.eq_or_eq`), and sending the request once more makes up for
the ones whose replies were lost (`Does.effect_eq`).
-/

namespace Configd
namespace Lib

variable {S E : Type} {serve : S → Except E S} {effect : S → S} {s s' : S}

/-- The state after a delivery whose reply is lost. -/
def deliver (serve : S → Except E S) (s : S) : S :=
  match serve s with
  | .ok next => next
  | .error _ => s

/-- The state after any number of deliveries whose replies are lost. -/
def Delivered (serve : S → Except E S) : S → S → Prop :=
  Relation.ReflTransGen fun s s' => deliver serve s = s'

/-- An accepted request does `effect`, which is idempotent. -/
structure Does (serve : S → Except E S) (effect : S → S) : Prop where
  of_ok : ∀ {s s'}, serve s = .ok s' → s' = effect s
  idempotent : ∀ s, effect (effect s) = effect s

namespace Does

theorem deliver_eq (h : Does serve effect) (s : S) :
    deliver serve s = s ∨ deliver serve s = effect s := by
  rw [deliver]
  cases hserve : serve s with
  | ok next => exact .inr (h.of_ok hserve)
  | error err => exact .inl rfl

theorem eq_or_eq (h : Does serve effect) (hs : Delivered serve s s') : s' = s ∨ s' = effect s := by
  induction hs with
  | refl => exact .inl rfl
  | tail _ hstep ih =>
    subst hstep
    rcases ih with rfl | rfl
    · exact h.deliver_eq _
    · rcases h.deliver_eq (effect s) with hsame | hagain
      · exact .inr hsame
      · exact .inr (hagain.trans (h.idempotent s))

theorem effect_eq (h : Does serve effect) (hs : Delivered serve s s') : effect s' = effect s := by
  rcases h.eq_or_eq hs with rfl | rfl
  · rfl
  · exact h.idempotent s

end Does

end Lib
end Configd
