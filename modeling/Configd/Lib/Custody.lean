import Mathlib.Algebra.Order.Group.Multiset
import Mathlib.Tactic.Abel

/-!
# Numbered things that change hands

A system hands out numbered things, the first one with the number 0.  Each of them is in
somebody's hands or was given up for good.  `Accounted` says so of the multiset of those that
are in hands: none is in two hands, and none is lost.

Two rules cover what a step does: things are given up (`Accounted.gives`), among them none at
all when they only change hands, and a new one is handed out (`Accounted.hands`).
`flatMap_set_add` is for the common case that the hands are the items of a list.
-/

namespace Configd
namespace Lib

/-- The first `count` numbers are in hands, each once, or gone. -/
structure Accounted (held : Multiset Nat) (count : Nat) (gone : Nat → Prop) : Prop where
  nodup : held.Nodup
  lt : ∀ c ∈ held, c < count
  all : ∀ c < count, c ∈ held ∨ gone c

namespace Accounted

variable {held held' lost : Multiset Nat} {count : Nat} {gone gone' : Nat → Prop}

theorem gives (h : Accounted held count gone) (heq : held' + lost = held)
    (hlost : ∀ c ∈ lost, gone' c) (hgone : ∀ c, gone c → gone' c) :
    Accounted held' count gone' := by
  subst heq
  refine ⟨(Multiset.nodup_add.mp h.nodup).1, fun c hc => h.lt c (Multiset.mem_add.mpr (Or.inl hc)),
    fun c hc => ?_⟩
  rcases h.all c hc with hheld | hgave
  · exact (Multiset.mem_add.mp hheld).imp_right (hlost c)
  · exact Or.inr (hgone c hgave)

theorem hands (h : Accounted held count gone) (heq : held' = count ::ₘ held)
    (hgone : ∀ c, gone c → gone' c) : Accounted held' (count + 1) gone' := by
  subst heq
  refine ⟨Multiset.nodup_cons.mpr ⟨fun hmem => lt_irrefl _ (h.lt count hmem), h.nodup⟩, ?_, ?_⟩
  · intro c hc
    rcases Multiset.mem_cons.mp hc with rfl | hold
    · exact Nat.lt_succ_self c
    · exact Nat.lt_succ_of_lt (h.lt c hold)
  · intro c hc
    rcases Nat.lt_succ_iff_lt_or_eq.mp hc with hold | rfl
    · exact (h.all c hold).imp (fun hheld => Multiset.mem_cons_of_mem hheld) (hgone c)
    · exact Or.inl (Multiset.mem_cons_self c held)

end Accounted

theorem flatMap_set_add {α β : Type*} (f : α → List β) {l : List α} {i : Nat} {a : α}
    (h : l[i]? = some a) (a' : α) :
    ((l.set i a').flatMap f : Multiset β) + (f a : Multiset β) =
      (l.flatMap f : Multiset β) + (f a' : Multiset β) := by
  induction l generalizing i with
  | nil => simp at h
  | cons b l ih =>
    cases i with
    | zero =>
      obtain rfl : b = a := by simpa using h
      simp only [List.set_cons_zero, List.flatMap_cons, ← Multiset.coe_add]
      abel
    | succ i =>
      have hrest := ih (by simpa using h)
      simp only [List.set_cons_succ, List.flatMap_cons, ← Multiset.coe_add]
      rw [add_assoc, hrest, add_assoc]

end Lib
end Configd
