import Mathlib

/-!
# Texts with references

A table gives every key a text over some alphabet that may refer to other keys.  When the
references go only so deep, every key has a meaning, the text that is left when all references are
followed.

* `exists_depth` — bounded paths give every key a depth;
* `Table.meaning_eq` — the meaning is what the text of a key says;
* `Table.Says.round`, `Table.below_round` — replacing references by the present texts of the keys,
  key after key and in any order, keeps the meaning and brings every key a level down in each
  round, until its text is its meaning (`Table.eq_meaning_of_below`).
-/

namespace Configd
namespace Lib

theorem exists_depth {κ : Type} {refers : κ → κ → Prop} {bound : Nat}
    (h : ∀ path : List κ, path.IsChain refers → path.length ≤ bound + 1) :
    ∃ depth : κ → Nat, (∀ a b, refers a b → depth b < depth a) ∧ ∀ a, depth a ≤ bound := by
  classical
  -- The depth is the greatest number of steps of a path that begins at the key.
  let steps (a : κ) (n : Nat) : Prop :=
    ∃ path : List κ, (a :: path).IsChain refers ∧ path.length = n
  have hsteps : ∀ a n, steps a n → n ≤ bound := by
    rintro a n ⟨path, hpath, rfl⟩
    have hlength := h (a :: path) hpath
    simpa using hlength
  refine ⟨fun a => Nat.findGreatest (steps a) bound, ?_, fun a => Nat.findGreatest_le bound⟩
  intro a b hab
  have hzero : steps b 0 := ⟨[], List.isChain_singleton b, rfl⟩
  obtain ⟨path, hpath, hlength⟩ : steps b (Nat.findGreatest (steps b) bound) :=
    Nat.findGreatest_spec (Nat.zero_le bound) hzero
  have hnext : steps a (Nat.findGreatest (steps b) bound + 1) :=
    ⟨b :: path, List.IsChain.cons_cons hab hpath, by rw [List.length_cons, hlength]⟩
  exact Nat.le_findGreatest (hsteps a _ hnext) hnext

/-- A text over `α` with references to keys. -/
abbrev RefText (α κ : Type) := List (α ⊕ κ)

namespace RefText

variable {α κ : Type}

/-- The text with each reference replaced by a text. -/
def subst (table : κ → RefText α κ) (u : RefText α κ) : RefText α κ :=
  u.flatMap (Sum.elim (fun a => [.inl a]) table)

/-- The text with each reference replaced by a text without references. -/
def eval (meaning : κ → List α) (u : RefText α κ) : List α :=
  u.flatMap (Sum.elim ([·]) meaning)

theorem eval_subst (meaning : κ → List α) (table : κ → RefText α κ) (u : RefText α κ) :
    eval meaning (subst table u) = eval (fun k => eval meaning (table k)) u := by
  rw [eval, subst, List.flatMap_assoc]
  refine List.flatMap_congr fun piece _ => ?_
  cases piece <;> simp [eval]

theorem eval_congr {meaning meaning' : κ → List α} {u : RefText α κ}
    (h : ∀ k, .inr k ∈ u → meaning k = meaning' k) : eval meaning u = eval meaning' u := by
  refine List.flatMap_congr fun piece hpiece => ?_
  cases piece with
  | inl a => rfl
  | inr k => exact h k hpiece

theorem mem_subst {table : κ → RefText α κ} {u : RefText α κ} {k : κ} :
    .inr k ∈ subst table u ↔ ∃ r, .inr r ∈ u ∧ .inr k ∈ table r := by
  rw [subst, List.mem_flatMap]
  constructor
  · rintro ⟨piece, hpiece, hmem⟩
    cases piece with
    | inl a => simp at hmem
    | inr r => exact ⟨r, hpiece, hmem⟩
  · rintro ⟨r, hr, hmem⟩
    exact ⟨.inr r, hr, hmem⟩

end RefText

abbrev Table (α κ : Type) := κ → RefText α κ

namespace Table

variable {α κ : Type}

section Meaning

variable (table : Table α κ) (depth : κ → Nat)

/-- The text of a key with its references followed a number of levels down. -/
def follow : Nat → κ → List α
  | 0, _ => []
  | n + 1, k => RefText.eval (follow n) (table k)

def meaning (k : κ) : List α :=
  follow table (depth k + 1) k

variable {table depth} (hdepth : ∀ k r, .inr r ∈ table k → depth r < depth k)

include hdepth

theorem follow_eq_follow {n m : Nat} {k : κ} (hn : depth k < n) (hm : depth k < m) :
    follow table n k = follow table m k := by
  induction n generalizing m k with
  | zero => omega
  | succ n ih =>
    cases m with
    | zero => omega
    | succ m =>
      refine RefText.eval_congr fun r hr => ?_
      have hlt := hdepth k r hr
      exact ih (by omega) (by omega)

/-- **The meaning of a key** is what its text says. -/
theorem meaning_eq (k : κ) :
    RefText.eval (meaning table depth) (table k) = meaning table depth k := by
  refine RefText.eval_congr fun r hr => ?_
  exact follow_eq_follow hdepth (Nat.lt_succ_self _) (hdepth k r hr)

end Meaning

section Rounds

variable [DecidableEq κ]

/-- The references in the text of a key replaced by the texts they refer to. -/
def step (table : Table α κ) (k : κ) : Table α κ :=
  Function.update table k (RefText.subst table (table k))

/-- A round through keys in some order, each seeing what the ones before it did. -/
def round (order : List κ) (table : Table α κ) : Table α κ :=
  order.foldl step table

/-- The texts of a table say what its keys mean. -/
def Says (mean : κ → List α) (table : Table α κ) : Prop :=
  ∀ k, RefText.eval mean (table k) = mean k

theorem Says.step {mean : κ → List α} {table : Table α κ} (h : Says mean table) (k : κ) :
    Says mean (Table.step table k) := by
  intro j
  by_cases hj : j = k
  · subst hj
    rw [Table.step, Function.update_self, RefText.eval_subst]
    exact (RefText.eval_congr fun r _ => h r).trans (h j)
  · rw [Table.step, Function.update_of_ne hj]
    exact h j

/-- **A round keeps the meaning.** -/
theorem Says.round {mean : κ → List α} {table : Table α κ} (h : Says mean table) (order : List κ) :
    Says mean (Table.round order table) := by
  induction order generalizing table with
  | nil => exact h
  | cons k order ih => exact ih (h.step k)

/-- The references of a key lie some levels below the next one. -/
def Below (depth : κ → Nat) (levels : Nat) (table : Table α κ) (k : κ) : Prop :=
  ∀ r, .inr r ∈ table k → depth r + 1 + levels ≤ depth k

variable {depth : κ → Nat} {levels : Nat} {table : Table α κ}

omit [DecidableEq κ] in
theorem Below.pred {k : κ} (h : Below depth (levels + 1) table k) : Below depth levels table k := by
  intro r hr
  have hlevel := h r hr
  omega

theorem below_step (h : ∀ k, Below depth levels table k) (k : κ) :
    Below depth (levels + 1) (Table.step table k) k := by
  intro r hr
  rw [Table.step, Function.update_self] at hr
  obtain ⟨middle, hmiddle, hr⟩ := RefText.mem_subst.mp hr
  have hfirst := h k middle hmiddle
  have hsecond := h middle r hr
  omega

theorem below_step_of_ne {j k : κ} (hj : j ≠ k) (h : Below depth levels table j) :
    Below depth levels (Table.step table k) j := by
  intro r hr
  rw [Table.step, Function.update_of_ne hj] at hr
  exact h r hr

/-- **A round brings every key it comes to one level down.** -/
theorem below_round (h : ∀ k, Below depth levels table k) (order : List κ) :
    (∀ k, Below depth levels (Table.round order table) k) ∧
      ∀ k, k ∈ order ∨ Below depth (levels + 1) table k →
        Below depth (levels + 1) (Table.round order table) k := by
  induction order generalizing table with
  | nil => exact ⟨h, fun k hk => hk.resolve_left List.not_mem_nil⟩
  | cons first order ih =>
    have hfirst := below_step h first
    have hstep : ∀ k, Below depth levels (Table.step table first) k := by
      intro k
      by_cases hk : k = first
      · exact hk ▸ hfirst.pred
      · exact below_step_of_ne hk (h k)
    obtain ⟨hall, hdown⟩ := ih hstep
    refine ⟨hall, fun k hk => hdown k ?_⟩
    by_cases hkf : k = first
    · exact .inr (hkf ▸ hfirst)
    · rcases hk with hk | hk
      · exact .inl ((List.mem_cons.mp hk).resolve_left hkf)
      · exact .inr (below_step_of_ne hkf hk)

omit [DecidableEq κ] in
theorem eq_meaning_of_below {mean : κ → List α} (hmean : Says mean table) {k : κ}
    (hdepth : depth k ≤ levels) (h : Below depth levels table k) :
    table k = (mean k).map .inl := by
  have hnone : ∀ r, .inr r ∉ table k := by
    intro r hr
    have hlevel := h r hr
    omega
  have hplain : ∀ u : RefText α κ, (∀ r, .inr r ∉ u) → u = (RefText.eval mean u).map .inl := by
    intro u hu
    induction u with
    | nil => rfl
    | cons piece u ih =>
      cases piece with
      | inl a =>
        refine congrArg (Sum.inl a :: ·) (ih fun r hr => hu r (List.mem_cons_of_mem _ hr))
      | inr r => exact absurd List.mem_cons_self (hu r)
  rw [← hmean k]
  exact hplain (table k) hnone

end Rounds

end Table

end Lib
end Configd
